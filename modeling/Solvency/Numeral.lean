/-! Numerals. Integers are unbounded, but a numeral, read or written, has at most 4300 decimal
digits. -/
namespace Solvency

def tenTo (n : Nat) : Nat := Nat.pow 10 n

def twoTo (n : Nat) : Nat := Nat.pow 2 n

def digitLimit : Nat := 4300

/-- The integer has a numeral. -/
def Writable (n : Int) : Prop := n.natAbs < tenTo digitLimit

instance (n : Int) : Decidable (Writable n) := inferInstanceAs (Decidable (_ < _))

namespace Numeral

def isHexDigit (c : Char) : Bool :=
  c.isDigit || ('a' ≤ c && c ≤ 'f') || ('A' ≤ c && c ≤ 'F')

def hexValue (c : Char) : Nat :=
  if c.isDigit then c.toNat - '0'.toNat
  else if 'a' ≤ c then c.toNat - 'a'.toNat + 10
  else c.toNat - 'A'.toNat + 10

/-- The number that digits spell, most significant first, in a base up to sixteen. -/
def value (base : Nat) (digits : List Char) : Nat :=
  digits.foldl (fun n c => base * n + hexValue c) 0

/-- The digits of a number in a base, filled with zeros up to a width. -/
def padded (base width n : Nat) : List Char :=
  let digits := Nat.toDigits base n
  List.replicate (width - digits.length) '0' ++ digits

/-- Lower-case hexadecimal digits, filled with zeros up to a width. -/
def hexPadded (width n : Nat) : List Char := padded 16 width n

end Numeral
end Solvency
