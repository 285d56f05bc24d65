import Solvency.Yaml.Resolution

/-! YAML texts as documents, for the part of the language that configurations and snapshots are mostly
written in: one document, of block and flow collections and of scalars without tags. Anchors, tags and
block scalars are refused, and what looks like a date is left a text. Merged members come before a
mapping's own, so that its own win; of members with one key the first gives the place and the last the
value. Of several faults in a text that parses, the one that least collections are around is reported,
among equals the first. -/
namespace Solvency.Yaml

namespace Node

def isMerge : Node × Node → Bool
  | (.plain cs, _) => cs == mergeMark
  | _ => false

def members? : Node → Option (List (Node × Node))
  | .mapping ms => some ms
  | _ => none

/-- The members that a merged value brings in: those of a mapping, or of a sequence of mappings from
the last to the first. -/
def merged? : Node → Option (List (Node × Node))
  | .mapping ms => some ms
  | .sequence xs => (xs.mapM members?).map fun mss => mss.reverse.flatten
  | _ => none

/-- Members with every merge carried out that can be. -/
def merge (ms : List (Node × Node)) : List (Node × Node) :=
  let usable (m : Node × Node) : Bool := isMerge m && (merged? m.2).isSome
  (ms.filter usable).flatMap (fun m => (merged? m.2).getD []) ++ ms.filter fun m => !usable m

mutual

/-- The node with all merges in it carried out. -/
def flattened : Node → Node
  | .plain cs => .plain cs
  | .quoted t => .quoted t
  | .sequence xs => .sequence (flattenedItems xs)
  | .mapping ms => .mapping (merge (flattenedMembers ms))

def flattenedItems : List Node → List Node
  | [] => []
  | x :: xs => flattened x :: flattenedItems xs

def flattenedMembers : List (Node × Node) → List (Node × Node)
  | [] => []
  | (k, v) :: ms => (flattened k, flattened v) :: flattenedMembers ms

end

/-- What a scalar stands for as a key, where the value mark is a text. -/
def key (cs : List Char) : Except Fault Document :=
  if cs = valueMark then .ok (.text (Text.ofChars cs)) else scalar cs

def faultOf : Except Fault Document → List Fault
  | .ok _ => []
  | .error f => [f]

def keyFaults : Node → List Fault
  | .plain cs => faultOf (key cs)
  | .quoted _ => []
  | _ => [malformed]

mutual

/-- The faults in a node, each with the number of collections around it. -/
def faults (depth : Nat) : Node → List (Nat × Fault)
  | .plain cs => (faultOf (scalar cs)).map (depth, ·)
  | .quoted _ => []
  | .sequence xs => itemFaults (depth + 1) xs
  | .mapping ms =>
    if ms.any isMerge then [(depth + 1, malformed)] else memberFaults (depth + 1) ms

def itemFaults (depth : Nat) : List Node → List (Nat × Fault)
  | [] => []
  | x :: xs => faults depth x ++ itemFaults depth xs

def memberFaults (depth : Nat) : List (Node × Node) → List (Nat × Fault)
  | [] => []
  | (k, v) :: ms => (keyFaults k).map (depth, ·) ++ faults depth v ++ memberFaults depth ms

end

/-- The first of the pairs with the least number. -/
def outermost : List (Nat × Fault) → Option (Nat × Fault)
  | [] => none
  | f :: fs =>
    match outermost fs with
    | some g => if g.1 < f.1 then some g else some f
    | none => some f

def known : Except Fault Document → Document
  | .ok d => d
  | .error _ => .null

mutual

/-- The document that a node without faults stands for. -/
def value : Node → Document
  | .plain cs => known (scalar cs)
  | .quoted t => .text t
  | .sequence xs => .list (itemValues xs)
  | .mapping ms => .mapping (Members.ofPairs (memberValues ms))

def itemValues : List Node → List Document
  | [] => []
  | x :: xs => value x :: itemValues xs

def memberValues : List (Node × Node) → List (Document × Document)
  | [] => []
  | (.plain cs, v) :: ms => (known (key cs), value v) :: memberValues ms
  | (k, v) :: ms => (value k, value v) :: memberValues ms

end

def document (x : Node) : Except Fault Document :=
  let x := x.flattened
  match outermost (x.faults 0) with
  | some (_, f) => .error f
  | none => .ok x.value

end Node

/-- The characters that a YAML text may hold. -/
def isAllowed (c : Char) : Bool :=
  let n := c.toNat
  c = '\t' || c = '\n' || c = '\r' || (0x20 ≤ n && n ≤ 0x7E) || n = 0x85 ||
  (0xA0 ≤ n && n ≤ 0xFFFD) || 0x10000 ≤ n

/-- The document that a whole text holds; null if there is none in it. -/
def read (cs : List Char) : Except Fault Document :=
  if cs.all isAllowed then do
    let x ← Node.root (tokens cs)
    x.document
  else .error malformed

end Solvency.Yaml
