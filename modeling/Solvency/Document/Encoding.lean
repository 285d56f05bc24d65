import Solvency.Document.Screen
import Solvency.PriceTable

/-! The canonical encoding: compact JSON with members in key order and every character as itself
unless JSON wants it escaped. Equal reports have equal encodings. -/
namespace Solvency
namespace Canonical

/-- Quotes, backslashes and the controls below the space are escaped, nothing else. -/
def escape (c : Char) : List Char :=
  if c = '"' then ['\\', '"']
  else if c = '\\' then ['\\', '\\']
  else if c = '\x08' then ['\\', 'b']
  else if c = '\x0c' then ['\\', 'f']
  else if c = '\n' then ['\\', 'n']
  else if c = '\r' then ['\\', 'r']
  else if c = '\t' then ['\\', 't']
  else if c.toNat < 0x20 then '\\' :: 'u' :: Numeral.hexPadded 4 c.toNat
  else [c]

def quoted (cs : List Char) : List Char := '"' :: cs.flatMap escape ++ ['"']

def integer (n : Int) : Except Fault (List Char) :=
  if Writable n then
    .ok (if n < 0 then '-' :: Nat.toDigits 10 n.natAbs else Nat.toDigits 10 n.natAbs)
  else .error .digitLimit

def text (t : Text) : Except Fault (List Char) :=
  match t.chars? with
  | some cs => .ok (quoted cs)
  | none => .error .noEncoding

/-- A member and the encoding of its value, or what is wrong with that. -/
structure Member where
  key : Text
  value : Except Fault (List Char)

def joined : List (List Char) → List Char
  | [] => []
  | [cs] => cs
  | cs :: rest => cs ++ ',' :: joined rest

def Member.encode (m : Member) : Except Fault (List Char) := do
  let key ← text m.key
  let value ← m.value
  pure (key ++ ':' :: value)

/-- Members are put in order first, so of several faults the first in key order is reported. -/
def record (members : List Member) : Except Fault (List Char) := do
  let written ← (sortOrdered (fun a b => b.key.before a.key) members).mapM Member.encode
  pure ('{' :: joined written ++ ['}'])

end Canonical

namespace Document

/-- What has no encoding is refused by two calls inside one another. -/
def unencodable (room : Nat) : Fault := if room < 2 then .nesting else .noEncoding

mutual

/-- The encoding of a screened document, with room for so many calls inside one another. A collection
takes one, and comparing the keys of several members one more. -/
def encode : Nat → (d : Document) → Except Fault (List Char)
  | _, .null => .ok "null".toList
  | _, .bool b => .ok (if b then "true".toList else "false".toList)
  | _, .integer n => Canonical.integer n
  | _, .text t => Canonical.text t
  | room, .float _ => .error (unencodable room)
  | room, .bytes _ => .error (unencodable room)
  | room, .moment _ => .error (unencodable room)
  | room, .set _ => .error (unencodable room)
  | 0, _ => .error .nesting
  | room + 1, .list xs => do
    let items ← encodeItems room xs
    pure ('[' :: Canonical.joined items ++ [']'])
  | room + 1, .tuple xs => do
    let items ← encodeItems room xs
    pure ('[' :: Canonical.joined items ++ [']'])
  | room + 1, .mapping ms =>
    if room = 0 ∧ 1 < ms.length then .error .nesting
    else do
      let members ← encodeMembers room ms
      Canonical.record members

def encodeItems (room : Nat) : List Document → Except Fault (List (List Char))
  | [] => .ok []
  | x :: xs => do
    let item ← encode room x
    let items ← encodeItems room xs
    pure (item :: items)

def encodeMembers (room : Nat) :
    List (Document × Document) → Except Fault (List Canonical.Member)
  | [] => .ok []
  | (.text key, v) :: ms => do
    let members ← encodeMembers room ms
    pure (⟨key, encode room v⟩ :: members)
  | _ => .error .noEncoding

end

/-- Screens a document and encodes it; the two walks begin at different places of the stack. -/
def canonical (screening encoding : Room) (d : Document) : Except Fault String := do
  screen screening.calls {} d
  let cs ← encode encoding.calls d
  pure (String.ofList cs)

end Document
end Solvency
