import Solvency.Margin.Fraction
import Solvency.Valuation.Balance

/-! Spot borrows. Every active negative balance is an exposure of its own; realized profit and loss
settles in the quote collateral, so it offsets the quote borrow before that is priced. -/
namespace Solvency

/-- The initial and the maintenance factor of a borrowed asset, where they are asked for. The cancel
check uses the initial ratio. -/
def CollateralTerms.borrowFactors (c : CollateralTerms) (wanted : FactorChoice)
    (required : Requirements) : Except Fault (Option Int × Option Int) := do
  let initial ←
    if wanted.hasInitial || wanted.hasCancel then
      some <$> Factor.spot required.initial c.weight
    else pure none
  let maintenance ←
    if wanted.hasMaintenance then some <$> Factor.spot required.maintenance c.weight
    else pure none
  pure (initial, maintenance)

/-- One entry per borrow in the notionals and in each vector that is asked for. -/
structure BorrowTotals where
  hasExposure : Bool := false
  initialFactors : List Int := []
  maintenanceFactors : List Int := []
  notionals : List Int := []
  deriving DecidableEq, Repr

/-- The quote value of one borrow, rounded up; one that profit covers carries no exposure. -/
def Snapshot.borrowNotional (s : Snapshot) (slot : CollateralSlot) (realized : Int) (index : Nat)
    (raw : Int) : Except Fault Int := do
  let debt ← slot.accrual.apply raw
  let debt ←
    if index = settlementIndex then do
      let settled ← Fixed.ofInt realized
      Width.i128.add debt settled
    else pure debt
  let price ← s.priceOf slot.terms.feed
  let value ← Fixed.mulCeil price (-debt)
  let units ← Fixed.ceil value
  pure (max 0 units)

def BorrowTotals.add (b : BorrowTotals) (notional : Int) (factors : Option Int × Option Int) :
    BorrowTotals where
  hasExposure := b.hasExposure || decide (0 < notional)
  initialFactors := b.initialFactors ++ factors.1.toList
  maintenanceFactors := b.maintenanceFactors ++ factors.2.toList
  notionals := b.notionals ++ [notional]

/-- Folds every active borrow, given what the account has realized in its positions. -/
def Snapshot.borrowTotals (s : Snapshot) (realized : Int) (wanted : FactorChoice)
    (required : Requirements) : Except Fault BorrowTotals :=
  (s.balances.filter fun (_, raw) => raw < 0).foldlM (fun b (index, raw) => do
    let slot ← s.collateralAt index
    let notional ← s.borrowNotional slot realized index raw
    let factors ← slot.terms.borrowFactors wanted required
    pure (b.add notional factors)) {}

end Solvency
