import Solvency.Arithmetic.Checked

/-! Fixed point with twelve decimal places: prices, multipliers and raw balances are integers
scaled by 10^12. The direction of every rounding is part of the operation's name; a plain product
or quotient rounds down. -/
namespace Solvency.Fixed

def scale : Int := 1000000000000

def ofInt (n : Int) : Except Fault Int := Width.i128.mul n scale

def mul (a b : Int) : Except Fault Int := Width.i128.check (a * b / scale)

def mulCeil (a b : Int) : Except Fault Int := Width.i128.check (-(-(a * b) / scale))

def div (a b : Int) : Except Fault Int :=
  if b = 0 then fail (.margin (.divisionByZero .fixedPoint a))
  else Width.i128.check ((a * scale).fdiv b)

def ceil (x : Int) : Except Fault Int := Width.i64.check (-(-x / scale))

def floor (x : Int) : Except Fault Int := Width.i64.check (x / scale)

end Solvency.Fixed
