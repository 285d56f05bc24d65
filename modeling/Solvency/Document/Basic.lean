import Solvency.Binary64.Basic
import Solvency.Document.Moment
import Solvency.Text.Basic

/-! Decoded documents: the values that the readers produce and the encoder writes. Members of a
mapping keep the order in which their keys first arrived, and any value but a list, a set or a
mapping may be a key. A set has its items in the order in which going through it meets them. -/
namespace Solvency

inductive Document where
  | null
  | bool (b : Bool)
  | integer (n : Int)
  | float (x : Binary64)
  | text (t : Text)
  | bytes (bs : List UInt8)
  | moment (m : Moment)
  | list (xs : List Document)
  | tuple (xs : List Document)
  | set (xs : List Document)
  | mapping (members : List (Document × Document))

abbrev Members := List (Document × Document)

namespace Document

instance : Coe String Document := ⟨fun s => .text (Text.ofString s)⟩
instance : Coe Int Document := ⟨.integer⟩

/-- What messages call a value of this kind. -/
def kindName : Document → String
  | .null => "NoneType"
  | .bool _ => "bool"
  | .integer _ => "int"
  | .float _ => "float"
  | .text _ => "str"
  | .bytes _ => "bytes"
  | .moment m => m.kindName
  | .list _ => "list"
  | .tuple _ => "tuple"
  | .set _ => "set"
  | .mapping _ => "dict"

/-- The integer that a truth value or an integer stands for as a key. -/
def integral? : Document → Option Int
  | .bool b => some (if b then 1 else 0)
  | .integer n => some n
  | _ => none

mutual

/-- Keys are the same when they are equal as numbers, as texts, as bytes or as moments, tuples item by
item. -/
def sameKey (a b : Document) : Bool :=
  match a.integral?, b.integral? with
  | some m, some n => m == n
  | some m, none => match b with
    | .float y => y.isInteger m
    | _ => false
  | none, some n => match a with
    | .float x => x.isInteger n
    | _ => false
  | none, none => match a, b with
    | .null, .null => true
    | .float x, .float y => x.sameKey y
    | .text s, .text t => s == t
    | .bytes s, .bytes t => s == t
    | .moment m, .moment n => m.sameKey n
    | .tuple xs, .tuple ys => sameKeys xs ys
    | _, _ => false

def sameKeys : List Document → List Document → Bool
  | [], [] => true
  | x :: xs, y :: ys => sameKey x y && sameKeys xs ys
  | _, _ => false

end

mutual

/-- Lists, sets and mappings are no keys, nor is a tuple that holds one. -/
def isKey : Document → Bool
  | .list _ => false
  | .set _ => false
  | .mapping _ => false
  | .tuple xs => areKeys xs
  | _ => true

def areKeys : List Document → Bool
  | [] => true
  | x :: xs => isKey x && areKeys xs

end

end Document

namespace Members

/-- A new key goes to the end; a key that is present keeps its place and its spelling and takes
the new value. -/
def insert (members : Members) (key value : Document) : Members :=
  match members with
  | [] => [(key, value)]
  | (k, v) :: rest => if k.sameKey key then (k, value) :: rest else (k, v) :: insert rest key value

def ofPairs (pairs : List (Document × Document)) : Members :=
  pairs.foldl (fun members p => members.insert p.1 p.2) []

/-- The value of a text key. -/
def get? (members : Members) (key : String) : Option Document :=
  (members.find? fun m => match m.1 with
    | .text t => t == Text.ofString key
    | _ => false).map (·.2)

/-- Members with text keys, in the order given. -/
def ofFields (fields : List (String × Document)) : Members :=
  fields.map fun f => (.text (Text.ofString f.1), f.2)

end Members

def Document.record (fields : List (String × Document)) : Document :=
  .mapping (Members.ofFields fields)

end Solvency
