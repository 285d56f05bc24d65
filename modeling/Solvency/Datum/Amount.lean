import Solvency.Datum.Integer
import Solvency.Arithmetic.Fixed

/-! Fixed-point fields. An integer counts whole units; a text is a plain decimal, which is scaled in
decimal floating point of 28 significant digits and has to come out whole. Written, an amount
has no superfluous zero on either side of its point. -/
namespace Solvency.Datum

def decimalPlaces : Nat := 12

/-- A plain decimal: a minus sign perhaps, digits, and perhaps a point and more digits. -/
structure Decimal where
  negative : Bool
  whole : List Char
  fraction : List Char
  deriving DecidableEq, Repr

def Decimal.ofChars? (cs : List Char) : Option Decimal :=
  let (negative, unsigned) := signed cs
  let whole := unsigned.takeWhile Char.isDigit
  if whole.isEmpty then none
  else
    match unsigned.dropWhile Char.isDigit with
    | [] => some ⟨negative, whole, []⟩
    | '.' :: fraction => if isNumeral fraction then some ⟨negative, whole, fraction⟩ else none
    | _ => none

def Decimal.ofText? (t : Text) : Option Decimal := do
  let cs ← trimmedChars? t
  Decimal.ofChars? cs

/-- All digits of a decimal as one number. -/
def Decimal.coefficient (d : Decimal) : Nat := Nat.ofDigitChars 10 (d.whole ++ d.fraction) 0

/-- `n / d` to the nearest integer, a half to the even one. -/
def roundHalfEven (n d : Nat) : Nat :=
  let q := n / d
  let r := n % d
  if 2 * r < d then q
  else if d < 2 * r then q + 1
  else if q % 2 = 0 then q else q + 1

/-- Significant digits of the scaled amount, and the least and greatest exponents it may have. -/
def precision : Nat := 28

def greatestExponent : Int := 999999

def leastExponent : Int := -1000026

/-- A number `coefficient * 10 ^ exponent`, rounded to the precision. -/
structure Scaled where
  coefficient : Nat
  exponent : Int
  deriving DecidableEq, Repr

def digitCount (n : Nat) : Nat := (Nat.toDigits 10 n).length

/-- Rounds to the precision, and to whole units of the least exponent. -/
def Scaled.rounded (s : Scaled) : Scaled :=
  let surplus := max (digitCount s.coefficient - precision) (leastExponent - s.exponent).toNat
  if surplus = 0 then s
  else ⟨roundHalfEven s.coefficient (tenTo surplus), s.exponent + surplus⟩

def Scaled.tooLarge (s : Scaled) : Bool :=
  s.coefficient != 0 && decide (greatestExponent < s.exponent + digitCount s.coefficient - 1)

/-- The integer that a scaled number is, if it is one. -/
def Scaled.whole? (s : Scaled) : Option Nat :=
  if 0 ≤ s.exponent then some (s.coefficient * tenTo s.exponent.toNat)
  else
    let unit := tenTo (-s.exponent).toNat
    if s.coefficient % unit = 0 then some (s.coefficient / unit) else none

/-- A decimal moved twelve places up. -/
def Decimal.scaled (d : Decimal) : Scaled :=
  (Scaled.mk d.coefficient ((decimalPlaces : Int) - d.fraction.length)).rounded

def amount (name : String) : Document → Except Fault Int
  | .integer n => .ok (n * Fixed.scale)
  | .text t =>
    match Decimal.ofText? t with
    | none => fail (.field (.notDecimal name t))
    | some d =>
      let scaled := d.scaled
      if scaled.tooLarge then fail (.field .tooLarge)
      else
        match scaled.whole? with
        | some n => .ok (withSign d.negative n)
        | none => fail (.field (.tooFine name t))
  | _ => fail (.field (.notAmount name))

/-- The digits after the point of a fraction of the scale, without zeros at their end. -/
def fractionDigits (fraction : Nat) : List Char :=
  let digits := Nat.toDigits 10 fraction
  let padded := List.replicate (decimalPlaces - digits.length) '0' ++ digits
  (padded.reverse.dropWhile (· == '0')).reverse

def amountChars (raw : Int) : List Char :=
  let whole := raw.natAbs / Fixed.scale.toNat
  let fraction := raw.natAbs % Fixed.scale.toNat
  let unsigned :=
    if fraction = 0 then Nat.toDigits 10 whole
    else Nat.toDigits 10 whole ++ '.' :: fractionDigits fraction
  if raw < 0 then '-' :: unsigned else unsigned

/-- The shortest decimal of a fixed-point number. -/
def amountText (raw : Int) : Except Fault Text :=
  if Writable (raw.natAbs / Fixed.scale.toNat : Nat) then .ok (Text.ofChars (amountChars raw))
  else .error .digitLimit

end Solvency.Datum
