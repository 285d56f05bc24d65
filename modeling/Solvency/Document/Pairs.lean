import Solvency.Fault

/-! A value read as a mapping: a mapping is itself, and a sequence of pairs lists its members. -/
namespace Solvency
namespace Document

/-- The items that going through a value meets, of a mapping its keys. -/
def items? : Document → Option (List Document)
  | .list xs => some xs
  | .tuple xs => some xs
  | .set xs => some xs
  | .text t => some (t.map fun p => .text [p])
  | .bytes bs => some (bs.map fun b => .integer b.toNat)
  | .mapping ms => some (ms.map (·.1))
  | _ => none

/-- The member that a value of two items spells. -/
def pair (d : Document) : Except Fault (Document × Document) :=
  match d.items? with
  | some [key, value] => if key.isKey then .ok (key, value) else .error .notPairs
  | some _ => .error .pairLength
  | none => .error .notPairs

def toMembers : Document → Except Fault Members
  | .mapping ms => .ok ms
  | d =>
    match d.items? with
    | some xs => do
      let pairs ← xs.mapM pair
      pure (Members.ofPairs pairs)
    | none => .error .notPairs

end Document
end Solvency
