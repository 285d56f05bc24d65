import Solvency.Text.Basic

/-! Log lines. -/
namespace Solvency

inductive Level where
  | debug
  | info
  | warning
  | error
  deriving DecidableEq, Repr

structure LogLine where
  level : Level
  message : Text
  deriving DecidableEq, Repr

end Solvency
