import Solvency.Fault

/-! Members of a document: what is asked of the values under a mapping's keys before their own
readers see them. -/
namespace Solvency.Datum

def members (name : String) : Document → Except Fault Members
  | .mapping ms => .ok ms
  | _ => fail (.field (.notMapping name))

/-- The items of a list; an absent one has none. -/
def items (name : String) : Document → Except Fault (List Document)
  | .null => .ok []
  | .list xs => .ok xs
  | .tuple xs => .ok xs
  | _ => fail (.field (.notList name))

/-- The items of a list, each read under its own name. -/
def list {α : Type} (name : String) (read : String → Document → Except Fault α) (d : Document) :
    Except Fault (List α) := do
  let xs ← items name d
  xs.zipIdx.mapM fun (x, i) => read s!"{name}[{i}]" x

/-- An empty slot, or what the mapping in it reads as. -/
def slot {α : Type} (read : String → Members → Except Fault (Option α)) (name : String) :
    Document → Except Fault (Option α)
  | .null => .ok none
  | d => do
    let ms ← members name d
    read name ms

def required (ms : Members) (key : String) : Except Fault Document :=
  match ms.get? key with
  | some d => .ok d
  | none => fail (.field (.missing key))

def optional (ms : Members) (key : String) (fallback : Document) : Document :=
  (ms.get? key).getD fallback

/-- The text that stands for a value where a name is wanted. -/
def label (d : Document) : Except Fault Text :=
  if d.integers.all fun n => decide (Writable n) then .ok d.plain else .error .digitLimit

end Solvency.Datum
