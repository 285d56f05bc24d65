import Solvency.Arithmetic.Factor
import Solvency.Margin.Fraction
import Solvency.Snapshot.Basic

/-! Perpetual exposure. The active positions are folded, in ascending market index, into an
account value and one notional and factor per position. Value is rounded down, exposure up. -/
namespace Solvency

/-- From this exponent on a power of ten has no binary floating-point form to be tried in. -/
def exponentLimit : Int := (twoTo 1024 - twoTo 970 : Nat)

/-- An amount owed at the scale of a market's funding index, in quote units. A negative number of
decimals has no integer unit: its reciprocal is a fraction, which is refused, or vanishes from
10^-324 on. -/
def fundingUnits (owed decimals : Int) : Except Fault Int :=
  if 0 ≤ decimals then do
    let quotient ← Width.i128.div owed (tenTo decimals.toNat)
    Width.i64.check quotient
  else if exponentLimit ≤ -decimals then fail .floatRange
  else if 324 ≤ -decimals then fail (.margin (.divisionByZero (.within .i128) owed))
  else fail (.notInteger "float")

/-- The quote value of a number of units at the mark price, rounded up. -/
def notional (units mark : Int) : Except Fault Int := do
  let lifted ← Fixed.ofInt units
  let value ← Fixed.mul lifted mark
  Fixed.ceil value

namespace Position

/-- Funding accrued since the position last settled. -/
def accruedFunding (p : Position) (m : MarketSlot) : Except Fault Int := do
  let difference ← Width.i128.sub m.funding p.funding
  let owed ← Width.i128.mul p.size (-difference)
  fundingUnits owed m.terms.decimals

/-- The profit of closing the position at the mark price, against its quote balance. -/
def profit (p : Position) (mark : Int) : Except Fault Int := do
  if 0 < p.size then
    let units ← Fixed.ofInt p.size
    let value ← Fixed.mul units mark
    let value ← Fixed.floor value
    Width.i64.sub value (-p.quoteTotal)
  else
    let units ← Fixed.ofInt (-p.size)
    let owed ← Fixed.mul units mark
    let owed ← Fixed.floor owed
    Width.i64.sub p.quoteTotal owed

/-- An account value with the position added; a flat one adds what it has realized. -/
def addedTo (p : Position) (m : MarketSlot) (value : Int) : Except Fault Int := do
  if p.size = 0 then Width.i64.add value p.realized
  else
    let funding ← p.accruedFunding m
    let profit ← p.profit m.mark
    Width.i64.sum [value, p.realized, profit, funding]

def heldNotional (p : Position) (mark : Int) : Except Fault Int := notional p.size.natAbs mark

/-- The notional after every resting order on the riskier side has filled. -/
def filledNotional (p : Position) (mark : Int) : Except Fault Int := do
  let long ← Width.i64.add p.size p.bids
  let short ← Width.i64.sub p.size p.asks
  notional (max long.natAbs short.natAbs : Nat) mark

end Position

/-- Running totals of the fold, and one entry per position in each vector that is asked for. -/
structure PerpTotals where
  accountValue : Int := 0
  hasExposure : Bool := false
  realized : Int := 0
  initialFactors : List Int := []
  maintenanceFactors : List Int := []
  cancelFactors : List Int := []
  filledNotionals : List Int := []
  heldNotionals : List Int := []
  deriving DecidableEq, Repr

/-- What is added to a vector of factors. -/
def appended (wanted : Bool) (factors : List Int) (factor : Except Fault Int) :
    Except Fault (List Int) :=
  if wanted then do
    let f ← factor
    pure (factors ++ [f])
  else pure factors

/-- One step of the fold. -/
def PerpTotals.add (t : PerpTotals) (p : Position) (m : MarketSlot) (wanted : FactorChoice) :
    Except Fault PerpTotals := do
  let accountValue ← p.addedTo m t.accountValue
  let held ← p.heldNotional m.mark
  let filled ← p.filledNotional m.mark
  let base ← Width.u16.check m.terms.baseFactor
  let initialFactors ← appended wanted.hasInitial t.initialFactors (pure base)
  let maintenanceFactors ←
    appended wanted.hasMaintenance t.maintenanceFactors (Factor.maintenance base)
  let cancelFactors ← appended wanted.hasCancel t.cancelFactors (Factor.cancel base)
  let realized ← Width.i64.add t.realized p.realized
  pure {
    accountValue, realized, initialFactors, maintenanceFactors, cancelFactors
    hasExposure := t.hasExposure || decide (0 < filled)
    filledNotionals := t.filledNotionals ++ [filled]
    heldNotionals := t.heldNotionals ++ [held] }

/-- Folds every active position, with the collateral as the first account value. -/
def Snapshot.perpTotals (s : Snapshot) (collateral : Int) (wanted : FactorChoice) :
    Except Fault PerpTotals := do
  let collateral ← Width.i64.check collateral
  s.positions.foldlM (fun t (index, p) => do
    let m ← s.marketAt index
    t.add p m wanted) { accountValue := collateral }

end Solvency
