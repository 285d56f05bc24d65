import Solvency.Host
import Solvency.Proofs.FirstOffender
import Solvency.Proofs.KeyOrder
import Solvency.Proofs.Legibility
import Solvency.Proofs.Overflow

/-! The canonical encoding is faithful and canonical: two documents that it can hold, and that there is
room for, have one encoding exactly if they are alike, that is equal up to the order of members and to
whether a sequence is a list or a tuple. Of a document that it can hold, only the depth can stand in
the way of an encoding. -/
namespace Solvency

/-- The characters of a text, halves of surrogate pairs left out. -/
def Text.characters (t : Text) : List Char := t.filterMap CodePoint.char?

theorem Text.chars?_eq_characters {t : Text} (whole : t.hasHalf = false) :
    t.chars? = some t.characters := by
  obtain ⟨cs, chars⟩ := chars?_returns_iff.mpr whole
  obtain rfl := chars?_eq_some_iff.mp chars
  rw [chars]
  simp [characters, ofChars, CodePoint.char?, Function.comp_def]

theorem Text.ofChars_characters {t : Text} (whole : t.hasHalf = false) :
    ofChars t.characters = t :=
  (chars?_eq_some_iff.mp (chars?_eq_characters whole)).symm

/-- Texts of characters are told by these. -/
theorem Text.characters_inj {t u : Text} (whole : t.hasHalf = false) (whole' : u.hasHalf = false) :
    t.characters = u.characters ↔ t = u := by
  rw [← ofChars_inj, ofChars_characters whole, ofChars_characters whole']

namespace Document

mutual

/-- Equal up to the order of members and to whether a sequence is a list or a tuple. A truth value is
like no integer. -/
def Alike : Document → Document → Prop
  | .null, .null => True
  | .bool a, .bool b => a = b
  | .integer m, .integer n => m = n
  | .text t, .text u => t = u
  | .list xs, .list ys | .list xs, .tuple ys | .tuple xs, .list ys | .tuple xs, .tuple ys =>
    ItemsAlike xs ys
  | .mapping ms, .mapping ns => ms.length = ns.length ∧ MembersAlike ms ns
  | _, _ => False

def ItemsAlike : List Document → List Document → Prop
  | [], [] => True
  | x :: xs, y :: ys => Alike x y ∧ ItemsAlike xs ys
  | _, _ => False

/-- Each of the first members has one with its key and a value like its own among the second. -/
def MembersAlike : List (Document × Document) → List (Document × Document) → Prop
  | [], _ => True
  | (k, v) :: ms, ns => (∃ w, (k, w) ∈ ns ∧ Alike v w) ∧ MembersAlike ms ns

end

mutual

/-- No mapping in the document has two members with one key. -/
def KeysApart : Document → Prop
  | .list xs | .tuple xs => ItemsApart xs
  | .mapping ms => (ms.map Prod.fst).Nodup ∧ MembersApart ms
  | _ => True

def ItemsApart : List Document → Prop
  | [] => True
  | x :: xs => KeysApart x ∧ ItemsApart xs

def MembersApart : List (Document × Document) → Prop
  | [] => True
  | (_, v) :: ms => KeysApart v ∧ MembersApart ms

end

/-- The members of a form in key order. -/
def inKeyOrder (ms : List (List Char × Form)) : List (List Char × Form) :=
  sortOrdered (fun a b => (Text.ofChars b.1).before (Text.ofChars a.1)) ms

/-- The characters of a key that is a text. -/
def keyCharacters : Document → List Char
  | .text t => t.characters
  | _ => []

mutual

/-- The form of a document that has an encoding. -/
def form : Document → Form
  | .bool b => .bool b
  | .integer n => .integer n
  | .text t => .text t.characters
  | .list xs | .tuple xs => .list (itemForms xs)
  | .mapping ms => .record (inKeyOrder (memberForms ms))
  | .null | .float _ | .bytes _ | .moment _ | .set _ => .null

def itemForms : List Document → List Form
  | [] => []
  | x :: xs => form x :: itemForms xs

def memberForms : List (Document × Document) → List (List Char × Form)
  | [] => []
  | (k, v) :: ms => (keyCharacters k, form v) :: memberForms ms

end

/-- The form of a member. -/
def memberForm (m : Document × Document) : List Char × Form := (keyCharacters m.1, m.2.form)

theorem memberForms_eq (ms : Members) : memberForms ms = ms.map memberForm := by
  induction ms with
  | nil => rfl
  | cons m rest ih => rw [memberForms, ih, List.map_cons, memberForm]

section Writing

/-- A member of a form as the encoder takes it. -/
def writtenMember (m : List Char × Form) : Canonical.Member := ⟨Text.ofChars m.1, .ok m.2.write⟩

theorem encode_writtenMember (m : List Char × Form) :
    (writtenMember m).encode = .ok (Form.writeMember m) := by
  rw [Canonical.Member.encode, writtenMember, Canonical.text, Text.chars?_ofChars]
  rfl

theorem record_writtenMember (ms : List (List Char × Form)) :
    Canonical.record (ms.map writtenMember) = .ok (Form.record (inKeyOrder ms)).write := by
  have sorted : sortOrdered (fun a b => b.key.before a.key) (ms.map writtenMember) =
      (inKeyOrder ms).map writtenMember := sortOrdered_map (fun _ _ => rfl) ms
  have written : ((inKeyOrder ms).map writtenMember).mapM Canonical.Member.encode =
      .ok ((inKeyOrder ms).map Form.writeMember) := by
    simp [mapM_eq_ok, encode_writtenMember]
  rw [Canonical.record, sorted, written, Form.write, Form.writeMembers_eq]
  rfl

mutual

theorem encode_eq_write (d : Document) (room : Nat) (encodable : d.Encodable)
    (fits : d.nesting 0 ≤ room) : d.encode room = .ok d.form.write := by
  match room, d with
  | _, .null | _, .bool _ => rfl
  | _, .float _ | _, .bytes _ | _, .moment _ | _, .set _ => exact encodable.elim
  | _, .integer n =>
    rw [encode, Canonical.integer, if_pos ((encodable_integer n).mp encodable)]
    rfl
  | _, .text t =>
    rw [encode, Canonical.text, Text.chars?_eq_characters encodable]
    rfl
  | 0, .list _ | 0, .tuple _ | 0, .mapping _ => exact absurd fits (Nat.not_succ_le_zero _)
  | room + 1, .list xs | room + 1, .tuple xs =>
    rw [encode, encodeItems_eq_write xs room encodable (Nat.le_of_succ_le_succ fits)]
    rfl
  | room + 1, .mapping ms =>
    obtain ⟨compared, inside⟩ := nesting_mapping_le.mp fits
    have keys : ¬ (room = 0 ∧ 1 < ms.length) := fun ⟨last, several⟩ =>
      Nat.ne_of_gt (compared several) last
    rw [encode, if_neg keys, encodeMembers_eq_write ms room encodable (memberNesting_le.mpr inside),
      ok_bind, record_writtenMember]
    rfl

theorem encodeItems_eq_write (xs : List Document) (room : Nat) (encodable : ItemsEncodable xs)
    (fits : itemNesting 0 xs ≤ room) :
    encodeItems room xs = .ok (Form.writeItems (itemForms xs)) := by
  match xs with
  | [] => rfl
  | x :: xs =>
    obtain ⟨first, later⟩ := Nat.max_le.mp fits
    rw [encodeItems, encode_eq_write x room encodable.1 first,
      encodeItems_eq_write xs room encodable.2 later]
    rfl

theorem encodeMembers_eq_write (ms : List (Document × Document)) (room : Nat)
    (encodable : MembersEncodable ms) (fits : memberNesting 0 ms ≤ room) :
    encodeMembers room ms = .ok ((memberForms ms).map writtenMember) := by
  match ms with
  | [] => rfl
  | (.text k, v) :: ms =>
    obtain ⟨key, value, rest⟩ := encodable
    obtain ⟨first, later⟩ := Nat.max_le.mp fits
    rw [encodeMembers, encode_eq_write v room value (Nat.max_le.mp first).2,
      encodeMembers_eq_write ms room rest later, ok_bind, memberForms, List.map_cons, writtenMember,
      keyCharacters, Text.ofChars_characters key]
    rfl
  | (.null, _) :: _ | (.bool _, _) :: _ | (.integer _, _) :: _ | (.float _, _) :: _
  | (.bytes _, _) :: _ | (.moment _, _) :: _ | (.list _, _) :: _ | (.tuple _, _) :: _
  | (.set _, _) :: _ | (.mapping _, _) :: _ =>
    exact encodable.elim

end

end Writing

section Depth

variable {screening encoding : Room}

/-- A member of a document that can be held: only the depth can stand in the way of its encoding. -/
def Shallow (m : Canonical.Member) : Prop :=
  m.key.hasHalf = false ∧ Ends (· = .nesting) (fun _ => True) m.value

theorem encode_of_shallow {m : Canonical.Member} (shallow : Shallow m) :
    Ends (· = .nesting) (fun _ => True) m.encode := by
  obtain ⟨key, named⟩ := Canonical.text_returns_iff.mpr shallow.1
  rw [Canonical.Member.encode, named, ok_bind]
  exact shallow.2.bind fun _ _ => True.intro

theorem record_of_shallow {members : List Canonical.Member} (shallow : ∀ m ∈ members, Shallow m) :
    Ends (· = .nesting) (fun _ => True) (Canonical.record members) := by
  have encoded : ∀ m ∈ sortOrdered (fun a b => b.key.before a.key) members,
      Ends (· = .nesting) (fun _ => True) m.encode :=
    fun m member => encode_of_shallow (shallow m (mem_sortOrdered.mp member))
  exact (Ends.mapM encoded).bind fun _ _ => True.intro

mutual

theorem encode_ends (d : Document) (room : Nat) (encodable : d.Encodable) :
    Ends (· = .nesting) (fun _ => True) (d.encode room) := by
  match room, d with
  | _, .null | _, .bool _ => exact True.intro
  | _, .float _ | _, .bytes _ | _, .moment _ | _, .set _ => exact encodable.elim
  | _, .integer n =>
    rw [encode, Canonical.integer, if_pos ((encodable_integer n).mp encodable)]
    exact True.intro
  | _, .text t =>
    rw [encode, Canonical.text, Text.chars?_eq_characters encodable]
    exact True.intro
  | 0, .list _ | 0, .tuple _ | 0, .mapping _ => rfl
  | room + 1, .list xs | room + 1, .tuple xs =>
    exact (encodeItems_ends xs room encodable).bind fun _ _ => True.intro
  | room + 1, .mapping ms =>
    rw [encode]
    split
    · rfl
    · exact (encodeMembers_ends ms room encodable).bind fun _ => record_of_shallow

theorem encodeItems_ends (xs : List Document) (room : Nat) (encodable : ItemsEncodable xs) :
    Ends (· = .nesting) (fun _ => True) (encodeItems room xs) := by
  match xs with
  | [] => exact True.intro
  | x :: xs =>
    exact (encode_ends x room encodable.1).bind fun _ _ =>
      (encodeItems_ends xs room encodable.2).bind fun _ _ => True.intro

theorem encodeMembers_ends (ms : List (Document × Document)) (room : Nat)
    (encodable : MembersEncodable ms) :
    Ends (· = .nesting) (fun members => ∀ m ∈ members, Shallow m) (encodeMembers room ms) := by
  match ms with
  | [] => exact fun m none => (List.not_mem_nil none).elim
  | (.text k, v) :: ms =>
    obtain ⟨key, value, rest⟩ := encodable
    exact (encodeMembers_ends ms room rest).bind fun _ later =>
      List.forall_mem_cons.mpr ⟨⟨key, encode_ends v room value⟩, later⟩
  | (.null, _) :: _ | (.bool _, _) :: _ | (.integer _, _) :: _ | (.float _, _) :: _
  | (.bytes _, _) :: _ | (.moment _, _) :: _ | (.list _, _) :: _ | (.tuple _, _) :: _
  | (.set _, _) :: _ | (.mapping _, _) :: _ =>
    exact encodable.elim

end

theorem canonical_ends {d : Document} (encodable : d.Encodable) :
    Ends (· = .nesting) (fun _ => True) (d.canonical screening encoding) := by
  have screened : Ends (· = .nesting) (fun _ => True) (d.screen screening.calls {}) :=
    screen_of_admissible (Encodable.admissible d encodable)
  exact screened.bind fun _ _ => (encode_ends d _ encodable).bind fun _ _ => True.intro

theorem canonical_of_not_fits {d : Document} (encodable : d.Encodable)
    (deep : ¬ d.Fits screening encoding) : d.canonical screening encoding = .error .nesting := by
  cases ended : d.canonical screening encoding with
  | ok line => exact absurd (canonical_returns_iff.mp ⟨line, ended⟩).2 deep
  | error f => rw [(canonical_ends encodable).fault ended]

end Depth

section Forms

variable {ms ns : Members}

theorem membersAlike_iff : MembersAlike ms ns ↔ ∀ m ∈ ms, ∃ w, (m.1, w) ∈ ns ∧ m.2.Alike w := by
  induction ms with
  | nil => simp [MembersAlike]
  | cons m rest ih => simp [MembersAlike, ih]

theorem itemsApart_iff {xs : List Document} : ItemsApart xs ↔ ∀ x ∈ xs, x.KeysApart := by
  induction xs with
  | nil => simp [ItemsApart]
  | cons x rest ih => simp [ItemsApart, ih]

theorem membersApart_iff : MembersApart ms ↔ ∀ m ∈ ms, m.2.KeysApart := by
  induction ms with
  | nil => simp [MembersApart]
  | cons m rest ih => simp [MembersApart, ih]

theorem membersEncodable_iff : MembersEncodable ms ↔
    ∀ m ∈ ms, (∃ k : Text, m.1 = .text k ∧ k.hasHalf = false) ∧ m.2.Encodable := by
  induction ms with
  | nil => simp [MembersEncodable]
  | cons m rest ih =>
    obtain ⟨k, v⟩ := m
    rw [List.forall_mem_cons, ← ih]
    cases k <;> simp [MembersEncodable, and_assoc]

/-- The documents that the canonical form can hold, given as mappings are: with one value for a key. -/
structure Holdable (d : Document) : Prop where
  encodable : d.Encodable
  apart : d.KeysApart

/-- Whether a document has the form of another tells whether they are alike. -/
def ToldByForm (d : Document) : Prop := ∀ e : Document, e.Holdable → (d.form = e.form ↔ d.Alike e)

theorem holdable_items {xs : List Document} (encodable : ItemsEncodable xs) (apart : ItemsApart xs) :
    ∀ x ∈ xs, x.Holdable := fun x member =>
  ⟨itemsEncodable_iff.mp encodable x member, itemsApart_iff.mp apart x member⟩

theorem Holdable.of_mem_members (holdable : Holdable (.mapping ms)) {m : Document × Document}
    (member : m ∈ ms) : m.2.Holdable :=
  ⟨(membersEncodable_iff.mp holdable.encodable m member).2,
    membersApart_iff.mp holdable.apart.2 m member⟩

/-- The keys of a mapping that can be held are told by their characters. -/
theorem Holdable.keyCharacters_inj {k l : Document} (holdable : Holdable (.mapping ms))
    (holdable' : Holdable (.mapping ns)) (member : k ∈ ms.map Prod.fst)
    (member' : l ∈ ns.map Prod.fst) : keyCharacters k = keyCharacters l ↔ k = l := by
  obtain ⟨m, listed, rfl⟩ := List.mem_map.mp member
  obtain ⟨n, listed', rfl⟩ := List.mem_map.mp member'
  obtain ⟨⟨t, key, whole⟩, _⟩ := membersEncodable_iff.mp holdable.encodable m listed
  obtain ⟨⟨u, key', whole'⟩, _⟩ := membersEncodable_iff.mp holdable'.encodable n listed'
  rw [key, key', Document.text.injEq]
  exact Text.characters_inj whole whole'

/-- Members of one form have one key and values of one form. -/
theorem memberForm_eq_iff (holdable : Holdable (.mapping ms)) (holdable' : Holdable (.mapping ns))
    {m n : Document × Document} (member : m ∈ ms) (member' : n ∈ ns) :
    memberForm m = memberForm n ↔ m.1 = n.1 ∧ m.2.form = n.2.form := by
  rw [memberForm, memberForm, Prod.mk.injEq, holdable.keyCharacters_inj holdable'
    (List.mem_map_of_mem member) (List.mem_map_of_mem member')]

theorem nodup_memberForms (holdable : Holdable (.mapping ms)) :
    ((memberForms ms).map fun m => Text.ofChars m.1).Nodup := by
  have keys : ((memberForms ms).map fun m => Text.ofChars m.1) =
      (ms.map Prod.fst).map fun k => Text.ofChars (keyCharacters k) := by
    simp [memberForms_eq, memberForm, Function.comp_def]
  rw [keys]
  refine List.Nodup.map_on (fun k member l member' same => ?_) holdable.apart.1
  exact (holdable.keyCharacters_inj holdable member member').mp (Text.ofChars_inj.mp same)

theorem form_mapping_eq_iff (holdable : Holdable (.mapping ms)) (holdable' : Holdable (.mapping ns))
    (told : ∀ m ∈ ms, ToldByForm m.2) :
    form (.mapping ms) = form (.mapping ns) ↔ Alike (.mapping ms) (.mapping ns) := by
  have nodup := nodup_memberForms holdable
  rw [form, form, Form.record.injEq, inKeyOrder, inKeyOrder, sortOrdered_eq_iff_perm nodup, Alike,
    membersAlike_iff, memberForms_eq, memberForms_eq]
  constructor
  · intro perm
    refine ⟨by simpa using perm.length_eq, fun m member => ?_⟩
    obtain ⟨n, member', same⟩ := List.mem_map.mp (perm.subset (List.mem_map_of_mem member))
    obtain ⟨key, value⟩ := (memberForm_eq_iff holdable' holdable member' member).mp same
    exact ⟨n.2, key ▸ member', (told m member n.2 (holdable'.of_mem_members member')).mp value.symm⟩
  · rintro ⟨lengths, partners⟩
    rw [memberForms_eq] at nodup
    refine perm_of_subset nodup (by simpa using lengths) fun f member => ?_
    obtain ⟨m, listed, rfl⟩ := List.mem_map.mp member
    obtain ⟨w, partner, alike⟩ := partners m listed
    have value := (told m listed w (holdable'.of_mem_members partner)).mpr alike
    exact List.mem_map.mpr
      ⟨_, partner, (memberForm_eq_iff holdable' holdable partner listed).mpr ⟨rfl, value.symm⟩⟩

theorem itemForms_eq_iff {xs ys : List Document} (held : ∀ y ∈ ys, y.Holdable)
    (told : ∀ x ∈ xs, ToldByForm x) : itemForms xs = itemForms ys ↔ ItemsAlike xs ys := by
  induction xs generalizing ys with
  | nil => cases ys <;> simp [itemForms, ItemsAlike]
  | cons x rest ih =>
    cases ys with
    | nil => simp [itemForms, ItemsAlike]
    | cons y rest' =>
      obtain ⟨first, later⟩ := List.forall_mem_cons.mp told
      obtain ⟨held_first, held_later⟩ := List.forall_mem_cons.mp held
      rw [itemForms, itemForms, List.cons.injEq, ItemsAlike, first y held_first,
        ih held_later later]

mutual

/-- Documents of one form are those that are alike. -/
theorem toldByForm (d : Document) (holdable : d.Holdable) : ToldByForm d := by
  intro e holdable'
  match d with
  | .null | .bool _ | .integer _ =>
    cases e with
    | float _ | bytes _ | moment _ | set _ => exact holdable'.encodable.elim
    | _ => simp [form, Alike]
  | .float _ | .bytes _ | .moment _ | .set _ => exact holdable.encodable.elim
  | .text t =>
    cases e with
    | float _ | bytes _ | moment _ | set _ => exact holdable'.encodable.elim
    | text u => simp [form, Alike, Text.characters_inj holdable.encodable holdable'.encodable]
    | _ => simp [form, Alike]
  | .list xs | .tuple xs =>
    cases e with
    | float _ | bytes _ | moment _ | set _ => exact holdable'.encodable.elim
    | list ys | tuple ys =>
      rw [form, form, Form.list.injEq]
      exact itemForms_eq_iff (holdable_items holdable'.encodable holdable'.apart)
        (itemsToldByForm xs (holdable_items holdable.encodable holdable.apart))
    | _ => simp [form, Alike]
  | .mapping ms =>
    cases e with
    | float _ | bytes _ | moment _ | set _ => exact holdable'.encodable.elim
    | mapping ns =>
      exact form_mapping_eq_iff holdable holdable'
        (membersToldByForm ms fun m => holdable.of_mem_members)
    | _ => simp [form, Alike]

theorem itemsToldByForm (xs : List Document) (held : ∀ x ∈ xs, x.Holdable) :
    ∀ x ∈ xs, ToldByForm x := by
  match xs with
  | [] => simp
  | x :: rest =>
    obtain ⟨first, later⟩ := List.forall_mem_cons.mp held
    exact List.forall_mem_cons.mpr ⟨toldByForm x first, itemsToldByForm rest later⟩

theorem membersToldByForm (ms : List (Document × Document)) (held : ∀ m ∈ ms, m.2.Holdable) :
    ∀ m ∈ ms, ToldByForm m.2 := by
  match ms with
  | [] => simp
  | (k, v) :: rest =>
    obtain ⟨first, later⟩ := List.forall_mem_cons.mp held
    exact List.forall_mem_cons.mpr ⟨toldByForm v first, membersToldByForm rest later⟩

end

end Forms

/-- A document that the canonical form can hold has an encoding exactly if there is room for it, and for
want of room is all that it fails. Two of them that there is room for have the same encoding exactly if
they are alike. -/
theorem canonical_eq_iff_alike {d e : Document} (screening encoding : Room) (holdable : d.Holdable)
    (holdable' : e.Holdable) :
    (d.Fits screening encoding → e.Fits screening encoding →
      ∃ line line', d.canonical screening encoding = .ok line ∧
        e.canonical screening encoding = .ok line' ∧ (line.toUTF8 = line'.toUTF8 ↔ d.Alike e)) ∧
    (¬ d.Fits screening encoding → d.canonical screening encoding = .error .nesting) := by
  have written (d : Document) (holdable : d.Holdable) (fits : d.Fits screening encoding) :
      d.canonical screening encoding = .ok (String.ofList d.form.write) := by
    have screened := (screen_eq_ok d _ {}).mpr
      ⟨Encodable.admissible d holdable.encodable, fits.1⟩
    rw [canonical, screened, ok_bind, encode_eq_write d _ holdable.encodable fits.2]
    rfl
  refine ⟨fun fits fits' => ⟨_, _, written d holdable fits, written e holdable' fits', ?_⟩,
    canonical_of_not_fits holdable.encodable⟩
  calc (String.ofList d.form.write).toUTF8 = (String.ofList e.form.write).toUTF8
      ↔ String.ofList d.form.write = String.ofList e.form.write := String.toByteArray_inj
    _ ↔ d.form.write = e.form.write := String.ofList_inj
    _ ↔ d.form = e.form := Form.write_injective.eq_iff
    _ ↔ d.Alike e := toldByForm d holdable e holdable'

/-- A pair with a given first item, in a mapping with a text that is escaped. -/
def paired (first : Document) : Document := .mapping [("b", .tuple [first, .null]), ("a\"", "\n")]

/-- The members the other way round, and a list in place of the tuple. -/
def rewritten : Document := .mapping [("a\"", "\n"), ("b", .list [.bool true, .null])]

theorem holdable_paired {first : Document} (holdable : first.Holdable) : (paired first).Holdable where
  encodable := ⟨by decide, ⟨holdable.encodable, trivial, trivial⟩, by decide, rfl, trivial⟩
  apart := ⟨by simp [Text.ofString_inj], ⟨holdable.apart, trivial, trivial⟩, trivial, trivial⟩

theorem holdable_rewritten : rewritten.Holdable where
  encodable := ⟨by decide, rfl, by decide, ⟨trivial, trivial, trivial⟩, trivial⟩
  apart := ⟨by simp [Text.ofString_inj], trivial, ⟨trivial, trivial, trivial⟩, trivial⟩

theorem alike_rewritten : (paired (.bool true)).Alike rewritten :=
  ⟨rfl, ⟨_, List.mem_cons_of_mem _ List.mem_cons_self, rfl, trivial, trivial⟩,
    ⟨_, List.mem_cons_self, rfl⟩, trivial⟩

theorem not_alike_paired : ¬ (paired (.bool true)).Alike (paired (.integer 1)) := by
  rintro ⟨_, ⟨w, partner, alike⟩, _⟩
  have pair : w = .tuple [.integer 1, .null] := by simpa [Text.ofString_inj] using partner
  subst pair
  exact alike.1

theorem fits_paired {first : Document} (plain : first.nesting 0 = 0 ∧ first.nesting 1 = 1) :
    (paired first).Fits Host.usual.screening Host.usual.encoding := by
  constructor <;> simp [paired, nesting, memberNesting, itemNesting, plain, Host.usual]

theorem fits_rewritten : rewritten.Fits Host.usual.screening Host.usual.encoding := by
  constructor <;> decide

/-- Order and kind of sequence make no difference, but an integer is not taken for a truth value. -/
theorem canonical_eq_iff_alike_paired :
    (paired (.bool true)).Holdable ∧ rewritten.Holdable ∧ (paired (.integer 1)).Holdable ∧
    (∃ line, (paired (.bool true)).canonical Host.usual.screening Host.usual.encoding = .ok line ∧
      rewritten.canonical Host.usual.screening Host.usual.encoding = .ok line) ∧
    ∃ line line',
      (paired (.bool true)).canonical Host.usual.screening Host.usual.encoding = .ok line ∧
      (paired (.integer 1)).canonical Host.usual.screening Host.usual.encoding = .ok line' ∧
      line.toUTF8 ≠ line'.toUTF8 := by
  have short : Writable 1 := (short_of_lt (by decide)).writable
  have first : (paired (.bool true)).Holdable := holdable_paired ⟨trivial, trivial⟩
  have second : rewritten.Holdable := holdable_rewritten
  have third : (paired (.integer 1)).Holdable := holdable_paired ⟨short, trivial⟩
  refine ⟨first, second, third, ?_, ?_⟩
  · obtain ⟨line, line', written, written', same⟩ :=
      (canonical_eq_iff_alike _ _ first second).1 (fits_paired ⟨rfl, rfl⟩) fits_rewritten
    have lines : line = line' := String.toByteArray_inj.mp (same.mpr alike_rewritten)
    exact ⟨line, written, lines ▸ written'⟩
  · obtain ⟨line, line', written, written', same⟩ :=
      (canonical_eq_iff_alike _ _ first third).1 (fits_paired ⟨rfl, rfl⟩) (fits_paired ⟨rfl, rfl⟩)
    exact ⟨line, line', written, written', mt same.mp not_alike_paired⟩

/-- Null inside so many lists. -/
def nested : Nat → Document
  | 0 => .null
  | n + 1 => .list [nested n]

theorem nesting_nested (leaf n : Nat) : (nested n).nesting leaf = n + leaf := by
  induction n with
  | zero => rw [nested, nesting_null, Nat.zero_add]
  | succ n ih => rw [nested, nesting_list, itemNesting, itemNesting, Nat.max_zero, ih]; omega

theorem holdable_nested (n : Nat) : (nested n).Holdable := by
  induction n with
  | zero => exact ⟨trivial, trivial⟩
  | succ n ih => exact ⟨⟨ih.encodable, trivial⟩, ih.apart, trivial⟩

/-- What the canonical form can hold has no encoding where it is nested too deep. -/
theorem not_canonical_returns : ¬ ∀ d : Document, d.Holdable →
    ∃ line, d.canonical Host.usual.screening Host.usual.encoding = .ok line := by
  intro returns
  obtain ⟨_, _, fits⟩ := canonical_returns_iff.mp (returns (nested 1000) (holdable_nested 1000))
  rw [nesting_nested] at fits
  exact absurd fits (by decide)

end Document
end Solvency
