import Solvency.Fault

/-! Checked integer arithmetic: the exact result is computed and refused when it leaves the range
that the protocol stores it in. Division rounds down unless its name says otherwise. -/
namespace Solvency.Width

variable (w : Width)

def check (v : Int) : Except Fault Int :=
  if w.Holds v then .ok v else fail (.margin (.overflow w v))

def add (a b : Int) : Except Fault Int := w.check (a + b)

def sub (a b : Int) : Except Fault Int := w.check (a - b)

def mul (a b : Int) : Except Fault Int := w.check (a * b)

def div (a b : Int) : Except Fault Int :=
  if b = 0 then fail (.margin (.divisionByZero (.within w) a)) else w.check (a.fdiv b)

def ceilDiv (a b : Int) : Except Fault Int :=
  if b = 0 then fail (.margin (.divisionByZero (.within w) a)) else w.check (-((-a).fdiv b))

/-- The sum from left to right, checked after every addition. -/
def sum (xs : List Int) : Except Fault Int := xs.foldlM w.add 0

end Solvency.Width

namespace Solvency

/-- The integer that a decoded value is; truth values are none. -/
def Document.toInteger : Document → Except Fault Int
  | .integer n => .ok n
  | d => fail (.notInteger d.kindName)

/-- The integer that a decoded value counts as in a sum, product or quotient. A truth value is zero or
one, and a float would make the result a float. -/
def Document.operand : Document → Except Fault Int
  | .bool b => .ok (if b then 1 else 0)
  | .integer n => .ok n
  | .float x => (Document.float x).toInteger
  | _ => .error .noOperand

end Solvency
