import Solvency.Document.Screen
import Solvency.Proofs.Nesting
import Solvency.Proofs.Reading

/-! What passes the screen: documents without floats, with texts as the only keys, and without lone
surrogates, that are no deeper than there is room for. Where in a document a value stands is of no
account. -/
namespace Solvency.Document

mutual

def admissible : Document → Bool
  | .float _ => false
  | .text t => !t.hasHalf
  | .list xs => itemsAdmissible xs
  | .tuple xs => itemsAdmissible xs
  | .mapping ms => membersAdmissible ms
  | _ => true

def itemsAdmissible : List Document → Bool
  | [] => true
  | x :: xs => admissible x && itemsAdmissible xs

def membersAdmissible : List (Document × Document) → Bool
  | [] => true
  | (.text k, v) :: ms => !k.hasHalf && admissible v && membersAdmissible ms
  | _ => false

end

mutual

theorem screen_eq_ok (d : Document) (room : Nat) (place : Location) :
    d.screen room place = .ok () ↔ d.admissible = true ∧ d.nesting 1 ≤ room := by
  match room, d with
  | 0, d => simp [screen, Nat.ne_of_gt (one_le_nesting d)]
  | room + 1, .null | room + 1, .bool _ | room + 1, .integer _ | room + 1, .bytes _
  | room + 1, .float _ | room + 1, .moment _ | room + 1, .set _ =>
    simp [screen, admissible, nesting]
  | room + 1, .text t => cases half : t.hasHalf <;> simp [screen, admissible, half]
  | room + 1, .list xs =>
    rw [screen, admissible, screenItems_eq_ok, nesting_list, Nat.add_le_add_iff_right]
  | room + 1, .tuple xs =>
    rw [screen, admissible, screenItems_eq_ok, nesting_tuple, Nat.add_le_add_iff_right]
  | room + 1, .mapping ms =>
    rw [screen, admissible, screenMembers_eq_ok, nesting_mapping, Nat.add_le_add_iff_right]

theorem screenItems_eq_ok (xs : List Document) (room : Nat) (place : Location) (index : Nat) :
    screenItems room place index xs = .ok () ↔
      itemsAdmissible xs = true ∧ itemNesting 1 xs ≤ room := by
  match xs with
  | [] => simp [screenItems, itemsAdmissible, itemNesting]
  | x :: xs =>
    rw [screenItems, seq_eq_ok, screen_eq_ok x, screenItems_eq_ok xs, itemsAdmissible,
      Bool.and_eq_true, itemNesting, Nat.max_le, and_and_and_comm]

theorem screenMembers_eq_ok (ms : List (Document × Document)) (room : Nat) (place : Location) :
    screenMembers room place ms = .ok () ↔
      membersAdmissible ms = true ∧ memberNesting 1 ms ≤ room := by
  match ms with
  | [] => simp [screenMembers, membersAdmissible, memberNesting]
  | (.text k, v) :: ms =>
    have rest := screenMembers_eq_ok ms room place
    have value := screen_eq_ok v room (place.down (.member k))
    rw [screenMembers, membersAdmissible, memberNesting, Nat.max_le, Nat.max_le, nesting_text]
    obtain rfl | room_pos := Nat.eq_zero_or_pos room
    · simp
    · cases half : k.hasHalf
      · simp only [Nat.ne_of_gt room_pos, Bool.false_eq_true, if_false, seq_eq_ok, value, rest,
          Bool.not_false, Bool.true_and, Bool.and_eq_true]
        exact ⟨fun ⟨⟨a, b⟩, c, e⟩ => ⟨⟨a, c⟩, ⟨room_pos, b⟩, e⟩,
          fun ⟨⟨a, c⟩, ⟨_, b⟩, e⟩ => ⟨⟨a, b⟩, c, e⟩⟩
      · simp [Nat.ne_of_gt room_pos]
  | (.null, _) :: _ | (.bool _, _) :: _ | (.integer _, _) :: _ | (.float _, _) :: _
  | (.bytes _, _) :: _ | (.moment _, _) :: _ | (.list _, _) :: _ | (.tuple _, _) :: _
  | (.set _, _) :: _ | (.mapping _, _) :: _ =>
    simp [screenMembers, membersAdmissible, seq_eq_ok]

end

theorem itemsAdmissible_iff {xs : List Document} :
    itemsAdmissible xs = true ↔ ∀ x ∈ xs, x.admissible = true := by
  induction xs with
  | nil => simp [itemsAdmissible]
  | cons x rest ih => simp [itemsAdmissible, ih]

theorem membersAdmissible_iff {ms : Members} : membersAdmissible ms = true ↔
    ∀ m ∈ ms, (∃ k : Text, m.1 = .text k ∧ k.hasHalf = false) ∧ m.2.admissible = true := by
  induction ms with
  | nil => simp [membersAdmissible]
  | cons m rest ih =>
    obtain ⟨k, v⟩ := m
    rw [List.forall_mem_cons, ← ih]
    cases k <;> simp [membersAdmissible]

section Written

@[simp] theorem admissible_integer (n : Int) : admissible (.integer n) = true := rfl

@[simp] theorem admissible_text (t : Text) : admissible (.text t) = !t.hasHalf := rfl

@[simp] theorem admissible_list {xs : List Document} :
    admissible (.list xs) = true ↔ ∀ x ∈ xs, x.admissible = true := by
  rw [admissible, itemsAdmissible_iff]

/-- The keys of a record are characters throughout, so only its values matter. -/
@[simp] theorem admissible_record {fields : List (String × Document)} :
    admissible (.record fields) = true ↔ ∀ f ∈ fields, f.2.admissible = true := by
  rw [record, admissible, membersAdmissible_iff, Members.ofFields, List.forall_mem_map]
  exact forall₂_congr fun f _ =>
    and_iff_right ⟨Text.ofString f.1, rfl, Text.hasHalf_ofChars f.1.toList⟩

end Written

section Read

variable {d : Document}

theorem admissible_of_get? {ms : Members} {key : String} (screened : admissible (.mapping ms) = true)
    (found : ms.get? key = some d) : d.admissible = true :=
  (membersAdmissible_iff.mp screened _ (Members.mem_of_get? found)).2

theorem admissible_of_items {name : String} {xs : List Document} (screened : d.admissible = true)
    (listed : Datum.items name d = .ok xs) : ∀ x ∈ xs, x.admissible = true := by
  unfold Datum.items at listed
  split at listed
  · cases listed
    simp
  · cases listed
    exact admissible_list.mp screened
  · cases listed
    exact itemsAdmissible_iff.mp screened
  · exact absurd listed (fail_ne_ok _ _)

theorem admissible_optional {ms : Members} (screened : admissible (.mapping ms) = true)
    (key : String) : (Datum.optional ms key .null).admissible = true := by
  unfold Datum.optional
  cases found : ms.get? key with
  | none => rfl
  | some d => exact admissible_of_get? screened found

theorem admissible_origin {α : Type} {read : String → Document → Except Fault α} {name : String}
    {as : List α} {a : α} (screened : d.admissible = true)
    (done : Datum.list name read d = .ok as) (member : a ∈ as) :
    ∃ x itemName, x.admissible = true ∧ read itemName x = .ok a := by
  obtain ⟨xs, x, itemName, listed, item, read⟩ := Datum.origin_of_list done member
  exact ⟨x, itemName, admissible_of_items screened listed x item, read⟩

/-- A name is taken over from a text, or is the written form of another value. -/
theorem hasHalf_of_label {t : Text} (screened : d.admissible = true) (done : Datum.label d = .ok t) :
    t.hasHalf = false := by
  obtain ⟨_, rfl⟩ := Datum.label_eq_ok_iff.mp done
  cases d with
  | text t => exact (Bool.not_eq_true' t.hasHalf).mp screened
  | _ => exact Text.hasHalf_ofChars _

theorem hasHalf_of_required {ms : Members} {key : String} {t : Text}
    (screened : admissible (.mapping ms) = true) (found : Datum.required ms key = .ok d)
    (done : Datum.label d = .ok t) : t.hasHalf = false :=
  hasHalf_of_label (admissible_of_get? screened (Datum.required_eq_ok.mp found)) done

end Read

end Solvency.Document
