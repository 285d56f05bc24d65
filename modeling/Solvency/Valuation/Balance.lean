import Solvency.Arithmetic.Factor
import Solvency.Snapshot.Basic

/-! Collateral valuation. Interest is applied to every active balance other than zero, the result
is priced in quote units, and only values that are not negative are weighted: debt counts in
full. -/
namespace Solvency

/-- The balance with interest: deposits grow by the supply multiplier, borrows by the other. -/
def Accrual.apply (a : Accrual) (raw : Int) : Except Fault Int :=
  if 0 < raw then Fixed.mul raw a.supply else Fixed.mul raw a.borrow

/-- The value of a collateral as it counts for margin. -/
def CollateralTerms.weighed (c : CollateralTerms) (value : Int) : Except Fault Int :=
  if 0 ≤ value then do
    let scaled ← Width.i128.mul value c.weight
    Width.i128.div scaled oneWhole
  else .ok value

namespace Snapshot

/-- The fixed-point quote value of one balance. -/
def balanceValue (s : Snapshot) (weighted : Bool) (index : Nat) (raw : Int) :
    Except Fault Int := do
  let slot ← s.collateralAt index
  let actual ← slot.accrual.apply raw
  let price ← s.priceOf slot.terms.feed
  let value ← Fixed.mul actual price
  if weighted then slot.terms.weighed value else pure value

/-- Quote values by collateral index. A balance of zero is skipped and needs no price. -/
def balanceValues (s : Snapshot) (weighted : Bool) : Except Fault (List (Nat × Int)) :=
  (s.balances.filter fun (_, raw) => raw ≠ 0).mapM fun (index, raw) => do
    let value ← s.balanceValue weighted index raw
    pure (index, value)

/-- The fixed-point quote value of all balances. -/
def totalValue (s : Snapshot) (weighted : Bool) : Except Fault Int := do
  let values ← s.balanceValues weighted
  Width.i128.sum (values.map (·.2))

/-- The weighted collateral in whole quote units, rounded down. -/
def collateral (s : Snapshot) : Except Fault Int := do
  let value ← s.totalValue true
  Fixed.floor value

end Snapshot
end Solvency
