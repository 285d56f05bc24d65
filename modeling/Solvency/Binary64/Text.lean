import Solvency.Binary64.Shortest
import Solvency.Text.Basic

/-! Floats as text. Written with the fewest digits that read back: positionally for exponents
of the leading digit from -4 to 15, with a point in every such form, otherwise with a signed
exponent of at least two digits. -/
namespace Solvency.Binary64

def positionalFrom : Int := -4

def positionalBelow : Int := 16

/-- The digits of a decimal whose leading digit has exponent `e`, with a point in place. -/
def positional (digits : List Char) (e : Int) : List Char :=
  if e < 0 then '0' :: '.' :: List.replicate (-e - 1).toNat '0' ++ digits
  else
    let whole := (e + 1).toNat
    if digits.length ≤ whole then
      digits ++ List.replicate (whole - digits.length) '0' ++ ['.', '0']
    else digits.take whole ++ '.' :: digits.drop whole

def scientific (digits : List Char) (e : Int) : List Char :=
  let exponent := Nat.toDigits 10 e.natAbs
  let point := if digits.length = 1 then digits else digits.take 1 ++ '.' :: digits.drop 1
  point ++ 'e' :: (if e < 0 then '-' else '+') ::
    List.replicate (2 - exponent.length) '0' ++ exponent

def magnitudeText (x : Binary64) : List Char :=
  if x.significand = 0 then ['0', '.', '0']
  else
    let d := x.shortest
    let digits := Nat.toDigits 10 d.digits
    let e := d.exponent + digits.length - 1
    if positionalFrom ≤ e ∧ e < positionalBelow then positional digits e else scientific digits e

def text (x : Binary64) : String :=
  if x.isNaN then "nan"
  else
    let magnitude := if x.isFinite then x.magnitudeText else "inf".toList
    String.ofList (if x.isNegative then '-' :: magnitude else magnitude)

/-- An unsigned decimal: digits with at most one point among them, then perhaps an exponent. -/
def magnitude? (cs : List Char) : Option Binary64 :=
  let whole := cs.takeWhile Char.isDigit
  let afterWhole := cs.dropWhile Char.isDigit
  let (fraction, afterFraction) := match afterWhole with
    | '.' :: r => (r.takeWhile Char.isDigit, r.dropWhile Char.isDigit)
    | r => ([], r)
  if whole.isEmpty && fraction.isEmpty then none
  else
    let value (e : Int) := ofDecimal (Nat.ofDigitChars 10 (whole ++ fraction) 0) (e - fraction.length)
    match afterFraction with
    | [] => some (value 0)
    | c :: r =>
      if c != 'e' && c != 'E' then none
      else
        let (negative, digits) := match r with
          | '-' :: ds => (true, ds)
          | '+' :: ds => (false, ds)
          | ds => (false, ds)
        if digits.isEmpty || !digits.all Char.isDigit then none
        else
          let e : Int := Nat.ofDigitChars 10 digits 0
          some (value (if negative then -e else e))

/-- The float nearest to a decimal text, or the one that `inf` or `nan` names. -/
def read? (cs : List Char) : Option Binary64 :=
  let named (cs : List Char) : Option Binary64 :=
    if cs = "inf".toList then some infinity
    else if cs = "nan".toList then some nan
    else magnitude? cs
  match cs with
  | '-' :: r => (named r).map negated
  | '+' :: r => named r
  | r => named r

example : (read? "0.1".toList).map text = some "0.1" := by decide +kernel
example : (read? "1e16".toList).map text = some "1e+16" := by decide +kernel
example : (read? "-2.98023223876953125e-8".toList).map text = some "-2.9802322387695312e-08" := by
  decide +kernel

end Solvency.Binary64
