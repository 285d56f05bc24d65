import Solvency.Fault
import Solvency.Text.Blank

/-! Integer fields: an integer, or a text that spells one in ASCII digits with perhaps a minus sign,
white space around it left aside. -/
namespace Solvency.Datum

/-- The characters of a text between its surrounding white space. -/
def trimmedChars? (t : Text) : Option (List Char) := t.trim.chars?

def isNumeral (cs : List Char) : Bool := !cs.isEmpty && cs.all Char.isDigit

/-- Splits a minus sign off. -/
def signed (cs : List Char) : Bool × List Char :=
  match cs with
  | '-' :: rest => (true, rest)
  | cs => (false, cs)

def withSign (negative : Bool) (n : Nat) : Int := if negative then -(n : Int) else n

/-- The digits of an integer text, with its sign. -/
def integerDigits? (t : Text) : Option (Bool × List Char) := do
  let cs ← trimmedChars? t
  let (negative, digits) := signed cs
  if isNumeral digits then some (negative, digits) else none

def integer (name : String) : Document → Except Fault Int
  | .integer n => .ok n
  | .text t =>
    match integerDigits? t with
    | some (negative, digits) =>
      if digitLimit < digits.length then .error .digitLimit
      else .ok (withSign negative (Nat.ofDigitChars 10 digits 0))
    | none => fail (.field (.notInteger name (.text t)))
  | d => fail (.field (.notInteger name d))

end Solvency.Datum
