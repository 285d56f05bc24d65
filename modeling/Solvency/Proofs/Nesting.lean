import Solvency.Document.Nesting

/-! How deep documents are nested, by what is in them. A walk fits in its room as soon as whatever is in
the document fits in what is left of it. -/
namespace Solvency

/-- There is a room for any depth. -/
theorem exists_room (n : Nat) : ∃ room : Room, n ≤ room.calls :=
  ⟨⟨max 8 n, Nat.le_max_left 8 n⟩, Nat.le_max_right 8 n⟩

namespace Document

variable {leaf n : Nat}

theorem itemNesting_le {xs : List Document} :
    itemNesting leaf xs ≤ n ↔ ∀ x ∈ xs, x.nesting leaf ≤ n := by
  induction xs with
  | nil => simp [itemNesting]
  | cons x rest ih => rw [itemNesting, Nat.max_le, ih, List.forall_mem_cons]

theorem memberNesting_le {ms : List (Document × Document)} : memberNesting leaf ms ≤ n ↔
    ∀ m ∈ ms, m.1.nesting leaf ≤ n ∧ m.2.nesting leaf ≤ n := by
  induction ms with
  | nil => simp [memberNesting]
  | cons m rest ih => rw [memberNesting, Nat.max_le, Nat.max_le, ih, List.forall_mem_cons]

@[simp] theorem nesting_list (xs : List Document) :
    nesting leaf (.list xs) = itemNesting leaf xs + 1 := by rw [nesting]

@[simp] theorem nesting_tuple (xs : List Document) :
    nesting leaf (.tuple xs) = itemNesting leaf xs + 1 := by rw [nesting]

@[simp] theorem nesting_text (t : Text) : nesting leaf (.text t) = leaf := rfl

@[simp] theorem nesting_integer (k : Int) : nesting leaf (.integer k) = leaf := rfl

@[simp] theorem nesting_null : nesting leaf .null = leaf := rfl

@[simp] theorem nesting_bool (b : Bool) : nesting leaf (.bool b) = leaf := rfl

theorem nesting_list_le {xs : List Document} :
    nesting leaf (.list xs) ≤ n + 1 ↔ ∀ x ∈ xs, x.nesting leaf ≤ n := by
  rw [nesting_list, Nat.add_le_add_iff_right, itemNesting_le]

/-- Of a mapping that is no deeper than its room, the keys can be compared as well. -/
theorem nesting_mapping_le {ms : List (Document × Document)} :
    nesting leaf (.mapping ms) ≤ n + 1 ↔
      (1 < ms.length → 1 ≤ n) ∧ ∀ m ∈ ms, m.1.nesting leaf ≤ n ∧ m.2.nesting leaf ≤ n := by
  have keys : (if 1 < ms.length then 1 else 0) ≤ n ↔ (1 < ms.length → 1 ≤ n) := by
    split <;> simp [*]
  rw [nesting, Nat.add_le_add_iff_right, Nat.max_le, memberNesting_le, keys, and_comm]

/-- With one member or none at the least, and room for one level more, keys are compared in any case. -/
theorem nesting_record_le {fields : List (String × Document)} (leaf_le : leaf ≤ n + 1)
    (inside : ∀ f ∈ fields, f.2.nesting leaf ≤ n + 1) : nesting leaf (record fields) ≤ n + 2 := by
  refine nesting_mapping_le.mpr ⟨fun _ => Nat.le_add_left 1 n, ?_⟩
  intro m member
  obtain ⟨f, field, rfl⟩ := List.mem_map.mp member
  exact ⟨leaf_le, inside f field⟩

section Screened

theorem one_le_nesting (d : Document) : 1 ≤ d.nesting 1 := by
  cases d <;> simp [nesting]

/-- Where whatever holds nothing takes a level, comparing the keys of a mapping takes no further one. -/
theorem nesting_mapping (ms : List (Document × Document)) :
    nesting 1 (.mapping ms) = memberNesting 1 ms + 1 := by
  have keys : (if 1 < ms.length then 1 else 0) ≤ memberNesting 1 ms := by
    match ms with
    | [] => simp
    | (k, v) :: rest =>
      have first := one_le_nesting k
      rw [memberNesting]
      split <;> omega
  rw [nesting, Nat.max_eq_left keys]

end Screened

end Document
end Solvency
