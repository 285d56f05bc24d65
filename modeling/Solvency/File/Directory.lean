import Solvency.Fault
import Solvency.File.Path

/-! A directory of files and the texts in them. A path is followed name by name, and the first name
that leads nowhere tells what is wrong with it. Texts are UTF-8, and every line of one ends in a line
feed, however it ends in the file. -/
namespace Solvency

structure Directory where
  files : List (Text × ByteArray)

/-- What a name leads to. -/
inductive Entry where
  | file (content : ByteArray)
  | directory

/-- The bytes that a path may have. -/
def pathLimit : Nat := 4095

/-- The bytes that a name in a path may have. -/
def nameLimit : Nat := 255

/-- The name, two points, that leads up. -/
def upward : List UInt8 := [0x2E, 0x2E]

/-- Line ends as line feeds. -/
def plainLines : List Char → List Char
  | '\r' :: '\n' :: rest => '\n' :: plainLines rest
  | '\r' :: rest => '\n' :: plainLines rest
  | c :: rest => c :: plainLines rest
  | [] => []

namespace Directory

def file? (d : Directory) (place : Place) : Option ByteArray :=
  (d.files.find? fun f => (Path.ofText f.1).place? = some place).map (·.2)

/-- What stands below the directory. A directory is there when a file is in it. -/
def entry? (d : Directory) (names : List (List UInt8)) : Option Entry :=
  match d.file? ⟨false, names⟩ with
  | some bytes => some (.file bytes)
  | none =>
    let holds (place : Place) : Bool := !place.absolute && names.isPrefixOf place.names
    if d.files.any fun f => ((Path.ofText f.1).place?).any holds then some .directory else none

/-- Why a name leads nowhere. -/
def absence (name : List UInt8) : FileFault :=
  if nameLimit < name.length then .nameTooLong else .notFound

/-- Follows names outside of the directory, where nothing is known but the way up. -/
def followOutside : List (List UInt8) → Except Fault ByteArray
  | [] => fail (.file .isDirectory)
  | name :: rest => if name = upward then followOutside rest else fail (.file (absence name))

/-- Follows names from a place in the directory. -/
def followFrom (d : Directory) (place : List (List UInt8)) :
    List (List UInt8) → Except Fault ByteArray
  | [] => fail (.file .isDirectory)
  | name :: rest =>
    if name = upward then
      if place.isEmpty then followOutside rest else d.followFrom place.dropLast rest
    else
      match d.entry? (place ++ [name]) with
      | some (.file bytes) => if rest.isEmpty then .ok bytes else fail (.file .notDirectory)
      | some .directory => d.followFrom (place ++ [name]) rest
      | none => fail (.file (absence name))

/-- The content of the file at a path. -/
def content (d : Directory) (p : Path) : Except Fault ByteArray :=
  match p.bytes?, p.place? with
  | some bytes, some place =>
    match d.file? place with
    | some content => .ok content
    | none =>
      if bytes.contains 0 then fail (.file .nullInPath)
      else if pathLimit < bytes.length then fail (.file .nameTooLong)
      else if place.absolute then followOutside place.names
      else d.followFrom [] place.names
  | _, _ => fail (.file .notEncodable)

def text (d : Directory) (p : Path) : Except Fault (List Char) := do
  let bytes ← d.content p
  match String.fromUTF8? bytes with
  | some s => pure (plainLines s.toList)
  | none => fail (.file .notUtf8)

end Directory
end Solvency
