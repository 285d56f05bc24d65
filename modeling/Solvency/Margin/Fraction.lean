/-! The margin fractions that an account is held to, and which factors each of them needs. -/
namespace Solvency

inductive FractionKind where
  | initial
  | maintenance
  | cancel
  deriving DecidableEq, Repr

/-- Which margin factors an aggregation produces. -/
inductive FactorChoice where
  | initial
  | maintenance
  | cancel
  | both
  deriving DecidableEq, Repr

def FractionKind.factors : FractionKind → FactorChoice
  | .initial => .initial
  | .maintenance => .maintenance
  | .cancel => .cancel

namespace FactorChoice

def hasInitial : FactorChoice → Bool
  | .initial | .both => true
  | _ => false

def hasMaintenance : FactorChoice → Bool
  | .maintenance | .both => true
  | _ => false

def hasCancel : FactorChoice → Bool
  | .cancel => true
  | _ => false

end FactorChoice
end Solvency
