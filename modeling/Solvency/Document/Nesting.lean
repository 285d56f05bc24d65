import Solvency.Document.Basic

/-! How deep documents are nested, and the room for walks over them. A walk over a document calls itself
for whatever is in a list, a tuple or a mapping, one call inside another for every level. -/
namespace Solvency

/-- How many calls of a walk may be inside one another where it begins. There is always enough room for
the documents that are written here. -/
structure Room where
  calls : Nat
  ample : 8 ≤ calls := by decide

namespace Document

mutual

/-- The levels of a document, of which what holds nothing counts as `leaf`. Where a mapping has several
members, comparing their keys is a level. -/
def nesting (leaf : Nat) : Document → Nat
  | .list xs => itemNesting leaf xs + 1
  | .tuple xs => itemNesting leaf xs + 1
  | .mapping ms => max (memberNesting leaf ms) (if 1 < ms.length then 1 else 0) + 1
  | _ => leaf

def itemNesting (leaf : Nat) : List Document → Nat
  | [] => 0
  | x :: xs => max (nesting leaf x) (itemNesting leaf xs)

def memberNesting (leaf : Nat) : List (Document × Document) → Nat
  | [] => 0
  | (k, v) :: ms => max (max (nesting leaf k) (nesting leaf v)) (memberNesting leaf ms)

end

end Document
end Solvency
