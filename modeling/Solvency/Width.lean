/-! The ranges that the protocol stores its quantities in. -/
namespace Solvency

inductive Width where
  | i64
  | i128
  | u16
  deriving DecidableEq, Repr

namespace Width

def lo : Width → Int
  | .i64 => -9223372036854775808
  | .i128 => -170141183460469231731687303715884105728
  | .u16 => 0

def hi : Width → Int
  | .i64 => 9223372036854775807
  | .i128 => 170141183460469231731687303715884105727
  | .u16 => 65535

def name : Width → String
  | .i64 => "i64"
  | .i128 => "i128"
  | .u16 => "u16"

/-- The value lies in the range, both ends included. -/
def Holds (w : Width) (v : Int) : Prop := w.lo ≤ v ∧ v ≤ w.hi

instance (w : Width) (v : Int) : Decidable (w.Holds v) := inferInstanceAs (Decidable (_ ∧ _))

end Width
end Solvency
