import Solvency.Datum.Integer

/-! Account keys as text: hexadecimal digits, two to a byte, with or without a mark `0x` in front.
They are written with the mark and in lower case. -/
namespace Solvency.Datum

/-- The digits behind an optional mark. -/
def unmarked (cs : List Char) : List Char :=
  match cs with
  | '0' :: 'x' :: d :: rest => d :: rest
  | '0' :: 'X' :: d :: rest => d :: rest
  | cs => cs

def hexDigits? (t : Text) : Option (List Char) := do
  let cs ← trimmedChars? t
  let digits := unmarked cs
  if !digits.isEmpty && digits.all Numeral.isHexDigit then some digits else none

def bytesOfHex : List Char → List UInt8
  | high :: low :: rest =>
    UInt8.ofNat (16 * Numeral.hexValue high + Numeral.hexValue low) :: bytesOfHex rest
  | _ => []

/-- A key of exactly `width` bytes. -/
def key (name : String) (width : Document) (d : Document) : Except Fault (List UInt8) :=
  match d with
  | .text t =>
    match width with
    | .integer bytes =>
      if bytes < 1 then fail (.field (.keyWidth width))
      else
        match hexDigits? t with
        | none => fail (.field (.notHex name t))
        | some digits =>
          if (digits.length : Int) = 2 * bytes then .ok (bytesOfHex digits)
          else fail (.field (.keyLength name bytes digits.length))
    | width => fail (.field (.keyWidth width))
  | d => fail (.field (.notKeyText name d.kindName))

def byteHex (b : UInt8) : List Char := Numeral.hexPadded 2 b.toNat

def keyText (bytes : List UInt8) : Text := Text.ofChars ('0' :: 'x' :: bytes.flatMap byteHex)

end Solvency.Datum
