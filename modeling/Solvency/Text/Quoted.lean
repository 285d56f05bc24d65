import Solvency.Numeral
import Solvency.Text.Printable

/-! Quoted text. Single quotes stand around it unless it holds a single and no double one; the
quote in use, the backslash and whatever is not printable are escaped. What is written is
printable throughout. -/
namespace Solvency
namespace Quoted

/-- The quote to write around code points: double only where that avoids an escape. -/
def quoteFor (points : Text) : Char :=
  if points.contains (.char '\'') && !points.contains (.char '"') then '"' else '\''

/-- The escape of a number, in the shortest of the forms with two, four and eight digits. -/
def numeric (n : Nat) : List Char :=
  if n < 0x100 then '\\' :: 'x' :: Numeral.hexPadded 2 n
  else if n < 0x10000 then '\\' :: 'u' :: Numeral.hexPadded 4 n
  else '\\' :: 'U' :: Numeral.hexPadded 8 n

def escape (quote : Char) : CodePoint → List Char
  | .char c =>
    if c = quote || c = '\\' then ['\\', c]
    else if c = '\n' then ['\\', 'n']
    else if c = '\r' then ['\\', 'r']
    else if c = '\t' then ['\\', 't']
    else if (CodePoint.char c).isPrintable then [c]
    else numeric c.toNat
  | p => numeric p.number

/-- Bytes beyond ASCII have no printable form. -/
def escapeByte (quote : Char) (b : UInt8) : List Char :=
  if b < 0x80 then escape quote (.char (Char.ofNat b.toNat)) else numeric b.toNat

end Quoted

def Text.quoted (t : Text) : String :=
  let quote := Quoted.quoteFor t
  String.ofList (quote :: t.flatMap (Quoted.escape quote) ++ [quote])

/-- Bytes are quoted like ASCII text, with a mark in front. -/
def quotedBytes (bytes : List UInt8) : String :=
  let quote := Quoted.quoteFor (bytes.map fun b => .char (Char.ofNat b.toNat))
  String.ofList ('b' :: quote :: bytes.flatMap (Quoted.escapeByte quote) ++ [quote])

end Solvency
