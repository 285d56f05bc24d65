import Solvency.Text.Basic

/-! Paths, as names between slashes. Empty names and single dots lead nowhere and are left out; the
extension of a last name is what follows its last point, unless that point starts or ends it. What a
path leads to is told by bytes: of characters those of their UTF-8 form, and a byte that belongs to no
such form stands in a name as a surrogate half. -/
namespace Solvency

/-- The bytes of a code point in a name. -/
def CodePoint.fileBytes? : CodePoint → Option (List UInt8)
  | .char c => some (String.utf8EncodeChar c)
  | .half h =>
    if 0x480 ≤ h.val ∧ h.val < 0x500 then some [UInt8.ofNat (h.val - 0x400)] else none

def Text.fileBytes? (t : Text) : Option (List UInt8) := (t.mapM CodePoint.fileBytes?).map List.flatten

/-- What names lead to, from the root or from the directory in use. -/
structure Place where
  absolute : Bool
  names : List (List UInt8)
  deriving DecidableEq, Repr

structure Path where
  /-- How many slashes there are in front; two are not the same as one, but more are. -/
  slashes : Nat
  names : List Text
  deriving DecidableEq, Repr

namespace Path

def slash : CodePoint := .char '/'

def point : CodePoint := .char '.'

def ofText (t : Text) : Path where
  slashes :=
    let front := (t.takeWhile (· = slash)).length
    if front ≤ 2 then front else 1
  names := (t.splitOn slash).filter fun name => !name.isEmpty && name != [point]

def text (p : Path) : Text :=
  let names := Text.joined [slash] p.names
  if p.slashes = 0 && names.isEmpty then [point] else List.replicate p.slashes slash ++ names

/-- The bytes that a path is given as. -/
def bytes? (p : Path) : Option (List UInt8) := p.text.fileBytes?

def place? (p : Path) : Option Place :=
  (p.names.mapM Text.fileBytes?).map fun names => ⟨p.slashes != 0, names⟩

/-- The last name; it is empty for a path without names. -/
def name (p : Path) : Text := (p.names.getLast?).getD []

/-- The last name before its last point, and what follows from the point on. -/
def division (p : Path) : Text × Text :=
  let ending := (p.name.reverse.takeWhile (· ≠ point)).reverse
  let stem := p.name.take (p.name.length - ending.length - 1)
  if ending.isEmpty || stem.isEmpty then (p.name, []) else (stem, point :: ending)

def stem (p : Path) : Text := p.division.1

def extension (p : Path) : Text := p.division.2

end Path
end Solvency
