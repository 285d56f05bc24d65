import Solvency.Exposure.Borrow
import Solvency.Exposure.Perpetual

/-! The margin fraction check. Perpetual and spot exposures are aggregated for the fraction, and the
budget has to exceed the weighted sum of the notionals. Without open exposure an account passes. -/
namespace Solvency

/-- The outcome of one check; budget and requirement are permille of quote units. -/
structure FractionOutcome where
  kind : FractionKind
  passed : Bool
  hasExposure : Bool := false
  budget : Int := 0
  requirement : Int := 0
  deriving DecidableEq, Repr

namespace FractionKind

/-- The factors and notionals that a fraction weighs. Maintenance looks at what is held now, the
others at the worst fill of the resting orders. -/
def weighed (kind : FractionKind) (perp : PerpTotals) (spot : BorrowTotals) :
    List Int × List Int :=
  match kind with
  | .initial => (perp.initialFactors ++ spot.initialFactors, perp.filledNotionals ++ spot.notionals)
  | .maintenance =>
    (perp.maintenanceFactors ++ spot.maintenanceFactors, perp.heldNotionals ++ spot.notionals)
  | .cancel => (perp.cancelFactors ++ spot.initialFactors, perp.filledNotionals ++ spot.notionals)

/-- What a fraction allows. Unrealized profit counts towards maintenance alone. -/
def budget (kind : FractionKind) (perp : PerpTotals) (collateral : Int) : Except Fault Int :=
  match kind with
  | .maintenance => Width.i64.mul perp.accountValue oneWhole
  | _ => do
    let realized ← Width.i64.add collateral perp.realized
    Width.i64.mul (min perp.accountValue realized) oneWhole

/-- The outcome for aggregated exposures. -/
def outcome (kind : FractionKind) (perp : PerpTotals) (spot : BorrowTotals) (collateral : Int) :
    Except Fault FractionOutcome :=
  if perp.hasExposure || spot.hasExposure then do
    let (factors, notionals) := kind.weighed perp spot
    let requirement ← Factor.dot factors notionals
    let budget ← kind.budget perp collateral
    pure { kind, passed := decide (requirement < budget), hasExposure := true, budget, requirement }
  else .ok { kind, passed := true }

end FractionKind

namespace Snapshot

/-- Checks a fraction of the account, given its weighted collateral. -/
def evaluate (s : Snapshot) (kind : FractionKind) (collateral : Int) (required : Requirements) :
    Except Fault FractionOutcome := do
  let perp ← s.perpTotals collateral kind.factors
  let spot ← s.borrowTotals perp.realized kind.factors required
  kind.outcome perp spot collateral

/-- The account satisfies a fraction, given its weighted collateral. -/
def meets (s : Snapshot) (kind : FractionKind) (collateral : Int) (required : Requirements) :
    Except Fault Bool := do
  let outcome ← s.evaluate kind collateral required
  pure outcome.passed

/-- The account satisfies a fraction with its own weighted collateral. -/
def meetsOwn (s : Snapshot) (kind : FractionKind) (required : Requirements) :
    Except Fault Bool := do
  let collateral ← s.collateral
  s.meets kind collateral required

end Snapshot
end Solvency
