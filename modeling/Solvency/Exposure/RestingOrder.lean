import Solvency.Snapshot.Basic

/-! Ranking of resting orders: the market whose larger side has the greatest value at the mark. -/
namespace Solvency

/-- The fixed-point value of the larger side of the resting orders. -/
def Position.restingValue (p : Position) (mark : Int) : Except Fault Int := do
  let units ← Fixed.ofInt (max p.bids p.asks)
  Fixed.mul units mark

/-- Among values by market index, the last of the greatest. -/
def lastGreatest (best : Option (Nat × Int)) (next : Nat × Int) : Option (Nat × Int) :=
  match best with
  | none => some next
  | some b => if b.2 ≤ next.2 then some next else some b

namespace Snapshot

/-- The market of the largest resting orders; none if the greatest value is zero. -/
def largestOrder (s : Snapshot) : Except Fault (Option Nat) := do
  let values ← s.positions.mapM fun (index, p) => do
    let m ← s.marketAt index
    let value ← p.restingValue m.mark
    pure (index, value)
  match values.foldl lastGreatest none with
  | none => fail (.margin .noPositions)
  | some (index, value) => pure (if value = 0 then none else some index)

def hasOrders (s : Snapshot) : Except Fault Bool := do
  let largest ← s.largestOrder
  pure largest.isSome

end Snapshot
end Solvency
