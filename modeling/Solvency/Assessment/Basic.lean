import Solvency.Margin.Check
import Solvency.Validity.Check
import Solvency.Exposure.RestingOrder

/-! The assessment of one account: all margin fractions and the ranking of its open orders. -/
namespace Solvency

/-- What is found for one account: the fixed-point value of its balances, its weighted collateral,
the outcomes of the checks, and the market of its largest resting orders. -/
structure Assessment where
  label : Text
  value : Int
  collateral : Int
  maintenance : FractionOutcome
  initial : FractionOutcome
  cancel : FractionOutcome
  holdsPositions : Bool
  largestOrder : Option Nat
  deriving DecidableEq, Repr

namespace Assessment

def liquidatable (a : Assessment) : Bool := !a.maintenance.passed

def ordersDue (a : Assessment) : Bool := !a.cancel.passed && a.largestOrder.isSome

end Assessment

/-- Assesses an account, after validation if that is asked for. Of several faults the first in the
order of these steps is reported. -/
def Snapshot.assess (s : Snapshot) (label : Text) (required : Requirements) (validates : Bool) :
    Except Fault Assessment := do
  if validates then s.validate
  let collateral ← s.collateral
  let initial ← s.evaluate .initial collateral required
  let maintenance ← s.evaluate .maintenance collateral required
  let cancel ← s.evaluate .cancel collateral required
  let value ← s.totalValue false
  let holdsPositions := !s.positions.isEmpty
  let largestOrder ← if holdsPositions then s.largestOrder else pure none
  pure { label, value, collateral, maintenance, initial, cancel, holdsPositions, largestOrder }

def FractionOutcome.toDocument (c : FractionOutcome) : Document :=
  .record [
    ("passed", .bool c.passed),
    ("has_open_pos_notional", .bool c.hasExposure),
    ("budget", .integer c.budget),
    ("requirement", .integer c.requirement)]

def Assessment.toDocument (a : Assessment) : Document :=
  .record [
    ("label", .text a.label),
    ("collateral_value_e12", .integer a.value),
    ("weighted_collateral", .integer a.collateral),
    ("maintenance", a.maintenance.toDocument),
    ("initial", a.initial.toDocument),
    ("cancel", a.cancel.toDocument),
    ("has_positions", .bool a.holdsPositions),
    ("largest_open_order", (a.largestOrder.map fun i => Document.integer i).getD .null),
    ("liquidatable", .bool a.liquidatable),
    ("should_cancel_orders", .bool a.ordersDue)]

end Solvency
