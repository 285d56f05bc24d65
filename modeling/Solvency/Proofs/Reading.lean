import Mathlib.Data.List.Forall2
import Solvency.Datum.Member
import Solvency.Proofs.Endings

/-! Reading records and lists back: what stands under a key, and a list item by item, each under
whatever name. -/
namespace Solvency

theorem Text.ofChars_inj {cs ds : List Char} : Text.ofChars cs = Text.ofChars ds ↔ cs = ds :=
  List.map_inj_right fun _ _ => CodePoint.char.inj

theorem Text.ofString_inj {a b : String} : Text.ofString a = Text.ofString b ↔ a = b :=
  Text.ofChars_inj.trans String.toList_inj

/-- A traversal succeeds with results that stand in the places of their items. -/
theorem mapM_eq_ok_iff_forall₂ {ε α β : Type} {f : α → Except ε β} {xs : List α} {ys : List β} :
    xs.mapM f = .ok ys ↔ List.Forall₂ (fun x y => f x = .ok y) xs ys := by
  rw [mapM_eq_ok, ← List.forall₂_eq_eq_eq, List.forall₂_map_left_iff, List.forall₂_map_right_iff]

namespace Members

/-- The value under a key of a record is the first one given for it. -/
@[simp] theorem get?_ofFields (fields : List (String × Document)) (key : String) :
    (ofFields fields).get? key = fields.lookup key := by
  induction fields with
  | nil => rfl
  | cons field rest ih =>
    have same : (Text.ofString field.1 == Text.ofString key) = (key == field.1) := by
      rw [Bool.eq_iff_iff, beq_iff_eq, beq_iff_eq, Text.ofString_inj, eq_comm]
    rw [List.lookup_cons, ← ih]
    simp only [get?, ofFields, List.map_cons, List.find?_cons, same]
    cases key == field.1 <;> rfl

theorem mem_of_get? {ms : Members} {key : String} {d : Document} (found : ms.get? key = some d) :
    (.text (Text.ofString key), d) ∈ ms := by
  obtain ⟨⟨k, v⟩, first, rfl⟩ := Option.map_eq_some_iff.mp found
  have named := List.find?_some first
  cases k
  case text t =>
    obtain rfl : t = Text.ofString key := by simpa using named
    exact List.mem_of_find?_eq_some first
  all_goals contradiction

theorem get?_append (ms ms' : Members) (key : String) :
    (ms ++ ms').get? key = (ms.get? key).or (ms'.get? key) := by
  simp [get?, List.find?_append, Option.map_or]

theorem get?_text (t : Text) (d : Document) (key : String) :
    Members.get? [(.text t, d)] key = if t = Text.ofString key then some d else none := by
  by_cases same : t = Text.ofString key <;> simp [get?, same]

theorem ofFields_inj {fields fields' : List (String × Document)} :
    ofFields fields = ofFields fields' ↔ fields = fields' := by
  refine List.map_inj_right fun f f' same => ?_
  obtain ⟨key, value⟩ := Prod.mk.inj same
  exact Prod.ext (Text.ofString_inj.mp (Document.text.inj key)) value

end Members

theorem Document.record_inj {fields fields' : List (String × Document)} :
    record fields = record fields' ↔ fields = fields' := by
  rw [record, record, Document.mapping.injEq, Members.ofFields_inj]

namespace Datum

variable {α β : Type} {name : String}

theorem members_eq_ok {d : Document} {ms : Members} :
    members name d = .ok ms ↔ d = .mapping ms := by
  cases d <;> simp [members]

theorem required_eq_ok {ms : Members} {key : String} {d : Document} :
    required ms key = .ok d ↔ ms.get? key = some d := by
  unfold required
  split <;> simp_all

@[simp] theorem label_text (t : Text) : label (.text t) = .ok t := rfl

/-- A value names something by its text, if there are numerals for the integers in it. -/
theorem label_eq_ok_iff {d : Document} {t : Text} :
    label d = .ok t ↔ (∀ n ∈ d.integers, Writable n) ∧ t = d.plain := by
  unfold label
  split
  · rename_i writable
    simp only [List.all_eq_true, decide_eq_true_eq] at writable
    simp only [Except.ok.injEq, eq_comm, iff_and_self]
    exact fun _ => writable
  · rename_i unwritable
    simp only [List.all_eq_true, decide_eq_true_eq] at unwritable
    simp [unwritable]

/-- The document gives the value, whatever it is called in a message. -/
def Reads (read : String → Document → Except Fault α) (d : Document) (a : α) : Prop :=
  ∀ name, read name d = .ok a

section Lists

variable {read : String → Document → Except Fault α} {xs : List Document} {as : List α}

theorem list_of_reads (each : List.Forall₂ (Reads read) xs as) :
    list name read (.list xs) = .ok as := by
  rw [← List.zipIdx_map_fst 0 xs, List.forall₂_map_left_iff] at each
  exact mapM_eq_ok_iff_forall₂.mpr (each.imp fun _ _ reads => reads _)

/-- Each value of a list that is read comes from an item of it. -/
theorem origin_of_list {d : Document} {a : α} (done : list name read d = .ok as) (member : a ∈ as) :
    ∃ xs x itemName, items name d = .ok xs ∧ x ∈ xs ∧ read itemName x = .ok a := by
  obtain ⟨xs, listed, done⟩ := bind_eq_ok.mp done
  obtain ⟨⟨x, i⟩, numbered, made⟩ := exists_of_mem_mapM done member
  exact ⟨xs, x, _, listed, List.fst_mem_of_mem_zipIdx numbered, made⟩

/-- A written list reads back, if each of its items does. -/
theorem list_map {write : α → Document} (back : ∀ a ∈ as, Reads read (write a) a) :
    list name read (.list (as.map write)) = .ok as :=
  list_of_reads (List.forall₂_map_left_iff.mpr (List.forall₂_same.mpr back))

/-- So does one whose items may fail to be written, with what is read of each. -/
theorem list_mapM {write : β → Except Fault Document} {f : β → α} {bs : List β}
    (written : bs.mapM write = .ok xs) (back : ∀ b x, write b = .ok x → Reads read x (f b)) :
    list name read (.list xs) = .ok (bs.map f) := by
  refine list_of_reads (List.forall₂_map_right_iff.mpr (List.Forall₂.flip ?_))
  exact (mapM_eq_ok_iff_forall₂.mp written).imp back

end Lists

theorem origin_of_slot {read : String → Members → Except Fault (Option α)} {d : Document} {a : α}
    (done : slot read name d = .ok (some a)) :
    ∃ ms, d = .mapping ms ∧ read name ms = .ok (some a) := by
  unfold slot at done
  split at done
  · cases done
  · obtain ⟨ms, mapping, done⟩ := bind_eq_ok.mp done
    exact ⟨ms, members_eq_ok.mp mapping, done⟩

end Datum
end Solvency
