import Mathlib.Data.List.Perm.Subperm
import Mathlib.Data.List.Sort
import Mathlib.Data.List.Lex
import Solvency.PriceTable

/-! The order of texts, and sorting by a text. Sorted items are those given, and items with one key come
in the order given. Where keys differ, the items alone decide what their sorted list is. -/
namespace Solvency

section Sorting

theorem insertOrdered_eq_orderedInsert {α : Type} (after : α → α → Bool) (a : α) (xs : List α) :
    insertOrdered after a xs = xs.orderedInsert (fun a b => after a b = false) a := by
  induction xs with
  | nil => rfl
  | cons b rest ih =>
    rw [insertOrdered, List.orderedInsert_cons]
    cases after a b <;> simp [ih]

theorem sortOrdered_eq_insertionSort {α : Type} (after : α → α → Bool) (xs : List α) :
    sortOrdered after xs = xs.insertionSort fun a b => after a b = false := by
  induction xs with
  | nil => rfl
  | cons a rest ih =>
    rw [List.insertionSort_cons, ← ih, ← insertOrdered_eq_orderedInsert]
    rfl

theorem perm_sortOrdered {α : Type} (after : α → α → Bool) (xs : List α) :
    (sortOrdered after xs).Perm xs := by
  rw [sortOrdered_eq_insertionSort]
  exact List.perm_insertionSort _ xs

section Stability

variable {α : Type} {after : α → α → Bool} {p : α → Bool} {a : α} {xs : List α}

/-- An item passes only those that it is after, so among items of which none is after another it stays
in front. -/
theorem filter_insertOrdered (tied : p a = true → ∀ b ∈ xs, p b = true → after a b = false) :
    (insertOrdered after a xs).filter p = (a :: xs).filter p := by
  induction xs with
  | nil => rfl
  | cons b rest ih =>
    have passed := ih fun chosen c member => tied chosen c (List.mem_cons_of_mem b member)
    rw [insertOrdered]
    split
    · rename_i behind
      rw [List.filter_cons, passed]
      by_cases chosen : p a = true
      · have dropped : ¬ p b = true := fun kept => by
          rw [tied chosen b List.mem_cons_self kept] at behind
          contradiction
        simp [chosen, dropped]
      · simp [List.filter_cons, chosen]
    · rfl

/-- Sorting keeps items of equal rank as they came. -/
theorem filter_sortOrdered (tied : ∀ a b, p a = true → p b = true → after a b = false)
    (xs : List α) : (sortOrdered after xs).filter p = xs.filter p := by
  induction xs with
  | nil => rfl
  | cons a rest ih =>
    change (insertOrdered after a (sortOrdered after rest)).filter p = _
    rw [filter_insertOrdered fun chosen b _ kept => tied a b chosen kept, List.filter_cons,
      List.filter_cons, ih]

end Stability

theorem mem_sortOrdered {α : Type} {after : α → α → Bool} {a : α} {xs : List α} :
    a ∈ sortOrdered after xs ↔ a ∈ xs := (perm_sortOrdered after xs).mem_iff

end Sorting

section Texts

theorem Text.before_iff {a b : Text} :
    a.before b = true ↔ a.map CodePoint.number < b.map CodePoint.number := by
  simp [Text.before]

theorem Text.not_before_iff {a b : Text} :
    a.before b = false ↔ b.map CodePoint.number ≤ a.map CodePoint.number := by
  simp [Text.before]

theorem CodePoint.number_injective : Function.Injective number := by
  have scalar (c : Char) (h : Fin 2048) : c.toNat ≠ 0xD800 + h.val := by
    have valid : c.toNat.isValidChar := c.valid
    have bound := h.isLt
    unfold Nat.isValidChar at valid
    omega
  rintro (c | h) (d | k) same
  · exact congrArg char (Char.toNat_inj.mp same)
  · exact absurd same (scalar c k)
  · exact absurd same.symm (scalar d h)
  · exact congrArg half (Fin.ext (by simpa [number] using same))

theorem Text.not_before_self (a : Text) : a.before a = false := Text.not_before_iff.mpr le_rfl

/-- Texts of which neither is before the other are the same. -/
theorem Text.eq_of_not_before {a b : Text} (left : a.before b = false) (right : b.before a = false) :
    a = b :=
  List.map_injective_iff.mpr CodePoint.number_injective
    (le_antisymm (Text.not_before_iff.mp right) (Text.not_before_iff.mp left))

/-- Texts in order ascend if no two of them are the same. -/
theorem Text.ascending_iff_nodup {ts : List Text}
    (ordered : ts.Pairwise fun a b => b.before a = false) :
    (ts.Pairwise fun a b => a.before b = true) ↔ ts.Nodup := by
  constructor
  · intro ascending
    refine ascending.imp ?_
    rintro a _ before rfl
    rw [Text.not_before_self] at before
    contradiction
  · intro nodup
    refine (List.pairwise_and_iff.mpr ⟨ordered, nodup⟩).imp ?_
    rintro a b ⟨behind, different⟩
    by_contra before
    exact different (Text.eq_of_not_before (Bool.eq_false_iff.mpr before) behind)

end Texts

section Keys

variable {α β : Type} {key : α → Text} {xs ys : List α}

/-- No item stands behind one with a later key. -/
theorem pairwise_sortOrdered (key : α → Text) (xs : List α) :
    (sortOrdered (fun a b => (key b).before (key a)) xs).Pairwise
      fun a b => (key b).before (key a) = false := by
  have total : Std.Total fun a b : α => (key b).before (key a) = false :=
    ⟨fun a b => by simpa only [Text.not_before_iff] using le_total _ _⟩
  have trans : IsTrans α fun a b => (key b).before (key a) = false :=
    ⟨fun a b c => by simpa only [Text.not_before_iff] using le_trans⟩
  rw [sortOrdered_eq_insertionSort]
  exact List.pairwise_insertionSort _ _

theorem sortOrdered_map {after : α → α → Bool} {after' : β → β → Bool} {f : α → β}
    (same : ∀ a b, after' (f a) (f b) = after a b) (xs : List α) :
    sortOrdered after' (xs.map f) = (sortOrdered after xs).map f := by
  have inserted (a : α) (sorted : List α) :
      insertOrdered after' (f a) (sorted.map f) = (insertOrdered after a sorted).map f := by
    induction sorted with
    | nil => rfl
    | cons b rest ih =>
      rw [List.map_cons, insertOrdered, insertOrdered, same, ih]
      split <;> rfl
  induction xs with
  | nil => rfl
  | cons a rest ih =>
    change insertOrdered after' (f a) (sortOrdered after' (rest.map f)) = _
    rw [ih, inserted]
    rfl

/-- Items of different keys have one sorted list. -/
theorem sortOrdered_eq_iff_perm (nodup : (xs.map key).Nodup) :
    sortOrdered (fun a b => (key b).before (key a)) xs =
      sortOrdered (fun a b => (key b).before (key a)) ys ↔ xs.Perm ys := by
  constructor
  · intro same
    exact (perm_sortOrdered _ xs).symm.trans (same ▸ perm_sortOrdered _ ys)
  · intro perm
    refine List.Perm.eq_of_pairwise ?_ (pairwise_sortOrdered key xs) (pairwise_sortOrdered key ys)
      ((perm_sortOrdered _ xs).trans (perm.trans (perm_sortOrdered _ ys).symm))
    intro a b member member' behind behind'
    rw [mem_sortOrdered] at member member'
    exact List.inj_on_of_nodup_map nodup member (perm.mem_iff.mpr member')
      (Text.eq_of_not_before behind' behind)

/-- Lists of items with different keys have the same items if they are equally long and one is part of
the other. -/
theorem perm_of_subset (nodup : (xs.map key).Nodup) (lengths : xs.length = ys.length)
    (subset : xs ⊆ ys) : xs.Perm ys :=
  (List.subperm_of_subset nodup.of_map subset).perm_of_length_le lengths.ge

end Keys

end Solvency
