import Solvency.Document.Encoding
import Solvency.Proofs.AmountText
import Solvency.Proofs.PriceOrder
import Solvency.Proofs.Screening

/-! The canonical encoding. A document has one exactly if its integers have numerals, its keys are
texts, all its texts are characters throughout, it holds no float, no bytes, no moment and no set, and
it is no deeper than there is room for. What is written has no control character, so that it is one
line. -/
namespace Solvency

/-- The character is no control character, and ends no line. -/
def Plain (c : Char) : Prop := 0x20 ≤ c.toNat

instance (c : Char) : Decidable (Plain c) := Nat.decLe 0x20 c.toNat

-- Stated for a text written out, whose characters are tried one by one.
theorem plain_of_all {cs : List Char} (all : (cs.all fun c => decide (Plain c)) = true) :
    ∀ c ∈ cs, Plain c := by
  simpa using all

theorem Text.chars?_returns_iff {t : Text} : (∃ cs, t.chars? = some cs) ↔ t.hasHalf = false := by
  induction t with
  | nil => simp [chars?, hasHalf]
  | cons p t ih =>
    unfold chars? hasHalf at ih ⊢
    rw [List.mapM_cons, List.any_cons, Bool.or_eq_false_iff, ← ih]
    cases p <;> cases t.mapM CodePoint.char? <;> simp [CodePoint.char?, CodePoint.isHalf]

namespace Canonical

variable {t : Text} {cs : List Char} {n : Int} {m : Member} {members : List Member}

theorem text_returns_iff : (∃ cs, text t = .ok cs) ↔ t.hasHalf = false := by
  rw [← Text.chars?_returns_iff, text]
  cases t.chars? <;> simp

theorem integer_returns_iff : (∃ cs, integer n = .ok cs) ↔ Writable n := by
  unfold integer
  split <;> simp_all

theorem Member.encode_returns_iff :
    (∃ cs, m.encode = .ok cs) ↔ m.key.hasHalf = false ∧ ∃ cs, m.value = .ok cs := by
  rw [encode, bind_returns_iff fun _ => bind_pure_returns_iff, text_returns_iff]

/-- Members are put in order, but none is left out. -/
theorem record_returns_iff : (∃ cs, record members = .ok cs) ↔
    ∀ m ∈ members, m.key.hasHalf = false ∧ ∃ cs, m.value = .ok cs := by
  rw [record, bind_pure_returns_iff, mapM_returns_iff]
  simp only [mem_sortOrdered, Member.encode_returns_iff]

section Plain

theorem plain_hexPadded {n : Nat} (control : n < 0x20) :
    ∀ c ∈ Numeral.hexPadded 4 n, Plain c := by
  have all : ∀ n < 0x20, ((Numeral.hexPadded 4 n).all fun c => decide (Plain c)) = true := by decide
  exact plain_of_all (all n control)

theorem plain_escape (c : Char) : ∀ e ∈ escape c, Plain e := by
  unfold escape
  split_ifs
  iterate 7 exact plain_of_all (by decide)
  · rename_i control
    exact List.forall_mem_cons.mpr ⟨by decide, List.forall_mem_cons.mpr
      ⟨by decide, plain_hexPadded control⟩⟩
  · rename_i visible
    exact List.forall_mem_singleton.mpr (not_lt.mp visible)

theorem plain_quoted : ∀ c ∈ quoted cs, Plain c := by
  have quote : Plain '"' := by decide
  have escaped : ∀ c ∈ cs.flatMap escape, Plain c :=
    List.forall_mem_flatMap.mpr fun c _ => plain_escape c
  exact List.forall_mem_append.mpr
    ⟨List.forall_mem_cons.mpr ⟨quote, escaped⟩, List.forall_mem_singleton.mpr quote⟩

theorem plain_text (done : text t = .ok cs) : ∀ c ∈ cs, Plain c := by
  unfold text at done
  split at done
  · cases done
    exact plain_quoted
  · contradiction

theorem plain_integer (done : integer n = .ok cs) : ∀ c ∈ cs, Plain c := by
  have digits : ∀ c ∈ Nat.toDigits 10 n.natAbs, Plain c := fun c member =>
    (Nat.le_succ 0x20).trans (Datum.visible_of_isDigit (Datum.isDigit_toDigits member)).1
  unfold integer at done
  split at done
  · cases done
    split
    · exact List.forall_mem_cons.mpr ⟨by decide, digits⟩
    · exact digits
  · contradiction

theorem plain_joined {items : List (List Char)} (plain : ∀ cs ∈ items, ∀ c ∈ cs, Plain c) :
    ∀ c ∈ joined items, Plain c := by
  fun_induction joined items with
  | case1 => simp
  | case2 cs => exact plain cs List.mem_cons_self
  | case3 cs rest _ ih =>
    have first : ∀ c ∈ cs, Plain c := plain cs List.mem_cons_self
    have others : ∀ c ∈ joined rest, Plain c :=
      ih fun item member => plain item (List.mem_cons_of_mem _ member)
    exact List.forall_mem_append.mpr ⟨first, List.forall_mem_cons.mpr ⟨by decide, others⟩⟩

/-- What stands between two plain characters. -/
theorem plain_enclosed {first last : Char} (opens : Plain first) (plain : ∀ c ∈ cs, Plain c)
    (closes : Plain last) : ∀ c ∈ first :: cs ++ [last], Plain c :=
  List.forall_mem_append.mpr
    ⟨List.forall_mem_cons.mpr ⟨opens, plain⟩, List.forall_mem_singleton.mpr closes⟩

theorem Member.plain_encode (value : ∀ cs, m.value = .ok cs → ∀ c ∈ cs, Plain c)
    (done : m.encode = .ok cs) : ∀ c ∈ cs, Plain c := by
  simp only [encode, bind_eq_ok] at done
  obtain ⟨key, named, written, valued, made⟩ := done
  cases made
  exact List.forall_mem_append.mpr
    ⟨plain_text named, List.forall_mem_cons.mpr ⟨by decide, value written valued⟩⟩

theorem plain_record (values : ∀ m ∈ members, ∀ cs, m.value = .ok cs → ∀ c ∈ cs, Plain c)
    (done : record members = .ok cs) : ∀ c ∈ cs, Plain c := by
  obtain ⟨written, encoded, made⟩ := bind_eq_ok.mp done
  cases made
  refine plain_enclosed (by decide) (plain_joined ?_) (by decide)
  exact forall_of_mapM (fun m member _ => Member.plain_encode (values m (mem_sortOrdered.mp member)))
    encoded

end Plain

end Canonical

namespace Document

mutual

/-- The canonical form can hold the document. -/
def Encodable : Document → Prop
  | .integer n => Writable n
  | .float _ => False
  | .bytes _ => False
  | .moment _ => False
  | .set _ => False
  | .text t => t.hasHalf = false
  | .list xs => ItemsEncodable xs
  | .tuple xs => ItemsEncodable xs
  | .mapping ms => MembersEncodable ms
  | _ => True

def ItemsEncodable : List Document → Prop
  | [] => True
  | x :: xs => Encodable x ∧ ItemsEncodable xs

def MembersEncodable : List (Document × Document) → Prop
  | [] => True
  | (.text k, v) :: ms => k.hasHalf = false ∧ Encodable v ∧ MembersEncodable ms
  | _ => False

end

mutual

theorem encode_returns_iff (d : Document) (room : Nat) :
    (∃ cs, d.encode room = .ok cs) ↔ d.Encodable ∧ d.nesting 0 ≤ room := by
  match room, d with
  | _, .null | _, .bool _ | _, .float _ | _, .bytes _ | _, .moment _ | _, .set _ =>
    simp [encode, Encodable, nesting]
  | _, .integer n => simp [encode, Encodable, Canonical.integer_returns_iff]
  | _, .text t => simp [encode, Encodable, Canonical.text_returns_iff]
  | 0, .list xs | 0, .tuple xs => simp [encode]
  | 0, .mapping ms => simp [encode, nesting]
  | room + 1, .list xs =>
    rw [encode, Encodable, bind_pure_returns_iff, encodeItems_returns_iff xs, nesting_list,
      Nat.add_le_add_iff_right]
  | room + 1, .tuple xs =>
    rw [encode, Encodable, bind_pure_returns_iff, encodeItems_returns_iff xs, nesting_tuple,
      Nat.add_le_add_iff_right]
  | room + 1, .mapping ms =>
    have members : (∃ cs, (encodeMembers room ms >>= Canonical.record) = .ok cs) ↔
        MembersEncodable ms ∧ memberNesting 0 ms ≤ room := by
      rw [← encodeMembers_returns_iff ms]
      simp only [bind_eq_ok, exists_comm (α := List Char), exists_and_left,
        Canonical.record_returns_iff]
    rw [encode, Encodable, nesting_mapping_le, ← memberNesting_le]
    by_cases compared : room = 0 ∧ 1 < ms.length
    · simp [compared]
    · rw [if_neg compared]
      refine members.trans (and_congr_right fun _ => (and_iff_right fun several => ?_).symm)
      exact Nat.pos_of_ne_zero fun none => compared ⟨none, several⟩

theorem encodeItems_returns_iff (xs : List Document) (room : Nat) :
    (∃ items, encodeItems room xs = .ok items) ↔
      ItemsEncodable xs ∧ itemNesting 0 xs ≤ room := by
  match xs with
  | [] => simp [encodeItems, ItemsEncodable, itemNesting]
  | x :: xs =>
    rw [encodeItems, ItemsEncodable, itemNesting, Nat.max_le,
      bind_returns_iff fun _ => bind_pure_returns_iff, encode_returns_iff x,
      encodeItems_returns_iff xs, and_and_and_comm]

theorem encodeMembers_returns_iff (ms : List (Document × Document)) (room : Nat) :
    (∃ members, encodeMembers room ms = .ok members ∧
      ∀ m ∈ members, m.key.hasHalf = false ∧ ∃ cs, m.value = .ok cs) ↔
      MembersEncodable ms ∧ memberNesting 0 ms ≤ room := by
  match ms with
  | [] => simp [encodeMembers, MembersEncodable, memberNesting]
  | (.text k, v) :: ms =>
    have value := encode_returns_iff v room
    have others := encodeMembers_returns_iff ms room
    rw [memberNesting, nesting_text, Nat.zero_max, Nat.max_le, MembersEncodable]
    constructor
    · rintro ⟨_, made, written⟩
      obtain ⟨members, rest, made⟩ := bind_eq_ok.mp made
      cases made
      obtain ⟨⟨key, first⟩, later⟩ := List.forall_mem_cons.mp written
      obtain ⟨encodable, fits⟩ := value.mp first
      obtain ⟨rest_encodable, rest_fits⟩ := others.mp ⟨members, rest, later⟩
      exact ⟨⟨key, encodable, rest_encodable⟩, fits, rest_fits⟩
    · rintro ⟨⟨key, encodable, rest_encodable⟩, fits, rest_fits⟩
      obtain ⟨members, rest, later⟩ := others.mpr ⟨rest_encodable, rest_fits⟩
      exact ⟨_, bind_eq_ok.mpr ⟨members, rest, rfl⟩,
        List.forall_mem_cons.mpr ⟨⟨key, value.mpr ⟨encodable, fits⟩⟩, later⟩⟩
  | (.null, _) :: _ | (.bool _, _) :: _ | (.integer _, _) :: _ | (.float _, _) :: _
  | (.bytes _, _) :: _ | (.moment _, _) :: _ | (.list _, _) :: _ | (.tuple _, _) :: _
  | (.set _, _) :: _ | (.mapping _, _) :: _ =>
    simp [encodeMembers, MembersEncodable]

end

mutual

/-- What the canonical form can hold passes the screen. -/
theorem Encodable.admissible (d : Document) (encodable : d.Encodable) : d.admissible = true := by
  match d with
  | .null | .bool _ | .integer _ => rfl
  | .float _ | .bytes _ | .moment _ | .set _ => exact encodable.elim
  | .text t => exact (Bool.not_eq_true' t.hasHalf).mpr encodable
  | .list xs | .tuple xs => exact ItemsEncodable.admissible xs encodable
  | .mapping ms => exact MembersEncodable.admissible ms encodable

theorem ItemsEncodable.admissible (xs : List Document) (encodable : ItemsEncodable xs) :
    itemsAdmissible xs = true := by
  match xs with
  | [] => rfl
  | x :: xs =>
    rw [itemsAdmissible, Bool.and_eq_true]
    exact ⟨Encodable.admissible x encodable.1, ItemsEncodable.admissible xs encodable.2⟩

theorem MembersEncodable.admissible (ms : List (Document × Document))
    (encodable : MembersEncodable ms) : membersAdmissible ms = true := by
  match ms with
  | [] => rfl
  | (.text k, v) :: ms =>
    obtain ⟨key, value, rest⟩ := encodable
    rw [membersAdmissible, key, Encodable.admissible v value, MembersEncodable.admissible ms rest]
    rfl
  | (.null, _) :: _ | (.bool _, _) :: _ | (.integer _, _) :: _ | (.float _, _) :: _
  | (.bytes _, _) :: _ | (.moment _, _) :: _ | (.list _, _) :: _ | (.tuple _, _) :: _
  | (.set _, _) :: _ | (.mapping _, _) :: _ =>
    exact encodable.elim

end

/-- There is room for both walks over the document. -/
def Fits (screening encoding : Room) (d : Document) : Prop :=
  d.nesting 1 ≤ screening.calls ∧ d.nesting 0 ≤ encoding.calls

section Canonical

variable {d : Document} {screening encoding : Room}

theorem canonical_returns_iff : (∃ line, d.canonical screening encoding = .ok line) ↔
    d.Encodable ∧ d.Fits screening encoding := by
  rw [canonical]
  constructor
  · rintro ⟨line, done⟩
    obtain ⟨screened, done⟩ := seq_eq_ok.mp done
    obtain ⟨cs, encoded, _⟩ := bind_eq_ok.mp done
    obtain ⟨encodable, fits⟩ := (encode_returns_iff d _).mp ⟨cs, encoded⟩
    exact ⟨encodable, ((screen_eq_ok d _ {}).mp screened).2, fits⟩
  · rintro ⟨encodable, room, room'⟩
    obtain ⟨cs, encoded⟩ := (encode_returns_iff d _).mpr ⟨encodable, room'⟩
    have screened := (screen_eq_ok d _ {}).mpr ⟨Encodable.admissible d encodable, room⟩
    exact ⟨String.ofList cs, seq_eq_ok.mpr ⟨screened, bind_eq_ok.mpr ⟨cs, encoded, rfl⟩⟩⟩

mutual

theorem plain_encode (d : Document) (room : Nat) {cs : List Char} :
    d.encode room = .ok cs → ∀ c ∈ cs, Plain c := by
  match room, d with
  | _, .null =>
    intro done
    cases done
    exact plain_of_all (by decide)
  | _, .bool b =>
    intro done
    cases done
    cases b <;> exact plain_of_all (by decide)
  | _, .integer n => exact Canonical.plain_integer
  | _, .text t => exact Canonical.plain_text
  | _, .float _ | _, .bytes _ | _, .moment _ | _, .set _ => intro done; cases done
  | 0, .list _ | 0, .tuple _ | 0, .mapping _ => intro done; cases done
  | room + 1, .list xs | room + 1, .tuple xs =>
    intro done
    obtain ⟨items, listed, made⟩ := bind_eq_ok.mp done
    cases made
    exact Canonical.plain_enclosed (by decide)
      (Canonical.plain_joined (plain_encodeItems xs room listed)) (by decide)
  | room + 1, .mapping ms =>
    intro done
    rw [encode] at done
    split at done
    · cases done
    · obtain ⟨members, listed, done⟩ := bind_eq_ok.mp done
      exact Canonical.plain_record (plain_encodeMembers ms room listed) done

theorem plain_encodeItems (xs : List Document) (room : Nat) {items : List (List Char)} :
    encodeItems room xs = .ok items → ∀ cs ∈ items, ∀ c ∈ cs, Plain c := by
  match xs with
  | [] => intro done; cases done; simp
  | x :: xs =>
    intro done
    simp only [encodeItems, bind_eq_ok] at done
    obtain ⟨item, first, others, rest, made⟩ := done
    cases made
    exact List.forall_mem_cons.mpr ⟨plain_encode x room first, plain_encodeItems xs room rest⟩

theorem plain_encodeMembers (ms : List (Document × Document)) (room : Nat)
    {members : List Canonical.Member} :
    encodeMembers room ms = .ok members →
      ∀ m ∈ members, ∀ cs, m.value = .ok cs → ∀ c ∈ cs, Plain c := by
  match ms with
  | [] => intro done; cases done; simp
  | (.text k, v) :: ms =>
    intro done
    obtain ⟨others, rest, made⟩ := bind_eq_ok.mp done
    cases made
    exact List.forall_mem_cons.mpr
      ⟨fun _ => plain_encode v room, plain_encodeMembers ms room rest⟩
  | (.null, _) :: _ | (.bool _, _) :: _ | (.integer _, _) :: _ | (.float _, _) :: _
  | (.bytes _, _) :: _ | (.moment _, _) :: _ | (.list _, _) :: _ | (.tuple _, _) :: _
  | (.set _, _) :: _ | (.mapping _, _) :: _ =>
    intro done
    cases done

end

/-- The canonical form is one line. -/
theorem plain_canonical {line : String} (done : d.canonical screening encoding = .ok line) :
    ∀ c ∈ line.toList, Plain c := by
  obtain ⟨_, done⟩ := seq_eq_ok.mp done
  obtain ⟨cs, encoded, made⟩ := bind_eq_ok.mp done
  cases made
  rw [String.toList_ofList]
  exact plain_encode d _ encoded

end Canonical

section Written

theorem itemsEncodable_iff {xs : List Document} :
    ItemsEncodable xs ↔ ∀ x ∈ xs, x.Encodable := by
  induction xs with
  | nil => simp [ItemsEncodable]
  | cons x rest ih => simp [ItemsEncodable, ih]

@[simp] theorem encodable_null : Encodable .null := trivial

@[simp] theorem encodable_bool (b : Bool) : Encodable (.bool b) := trivial

@[simp] theorem encodable_integer (n : Int) : Encodable (.integer n) ↔ Writable n := .rfl

@[simp] theorem encodable_text (t : Text) : Encodable (.text t) ↔ t.hasHalf = false := .rfl

@[simp] theorem encodable_list {xs : List Document} :
    Encodable (.list xs) ↔ ∀ x ∈ xs, x.Encodable := itemsEncodable_iff

@[simp] theorem encodable_record {fields : List (String × Document)} :
    Encodable (.record fields) ↔ ∀ f ∈ fields, f.2.Encodable := by
  change MembersEncodable (Members.ofFields fields) ↔ _
  induction fields with
  | nil => simp [Members.ofFields, MembersEncodable]
  | cons field rest ih =>
    have key : (Text.ofString field.1).hasHalf = false := Text.hasHalf_ofChars _
    rw [List.forall_mem_cons, ← ih]
    exact and_iff_right key

end Written

end Document
end Solvency
