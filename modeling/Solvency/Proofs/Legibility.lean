import Solvency.Json.Token
import Solvency.Proofs.Encoding

/-! Forms: what the canonical encoding tells of a document. A form is legible: whatever follows its
text, unless that goes on with a digit, no other form has a text that starts the same way. -/
namespace Solvency

/-- A document without what its encoding leaves out: which of its sequences are tuples, and in which
order its members came. -/
inductive Form where
  | null
  | bool (b : Bool)
  | integer (n : Int)
  | text (cs : List Char)
  | list (items : List Form)
  | record (members : List (List Char × Form))

namespace Form

def numeral (n : Int) : List Char :=
  if n < 0 then '-' :: Nat.toDigits 10 n.natAbs else Nat.toDigits 10 n.natAbs

mutual

/-- The text of a form, whose members are written in the order in which they stand. -/
def write : Form → List Char
  | .null => "null".toList
  | .bool b => if b then "true".toList else "false".toList
  | .integer n => numeral n
  | .text cs => Canonical.quoted cs
  | .list fs => '[' :: Canonical.joined (writeItems fs) ++ [']']
  | .record ms => '{' :: Canonical.joined (writeMembers ms) ++ ['}']

def writeItems : List Form → List (List Char)
  | [] => []
  | f :: fs => write f :: writeItems fs

def writeMembers : List (List Char × Form) → List (List Char)
  | [] => []
  | (key, f) :: ms => (Canonical.quoted key ++ ':' :: write f) :: writeMembers ms

end

/-- A member as it stands in the text of a record. -/
def writeMember (m : List Char × Form) : List Char := Canonical.quoted m.1 ++ ':' :: m.2.write

theorem writeItems_eq (fs : List Form) : writeItems fs = fs.map write := by
  induction fs with
  | nil => rfl
  | cons f rest ih => rw [writeItems, ih, List.map_cons]

theorem writeMembers_eq (ms : List (List Char × Form)) : writeMembers ms = ms.map writeMember := by
  induction ms with
  | nil => rfl
  | cons m rest ih => rw [writeMembers, ih, List.map_cons, writeMember]

end Form

section Escapes

/-- The four digits of a control character are read as that character. -/
theorem codePoint?_hexPadded {c : Char} (control : c.toNat < 0x20) : ∃ h₁ h₂ h₃ h₄,
    Numeral.hexPadded 4 c.toNat = [h₁, h₂, h₃, h₄] ∧
      Json.codePoint? h₁ h₂ h₃ h₄ = some (.char c) := by
  have written : ∀ n < 0x20, Numeral.hexPadded 4 n =
      ['0', '0', Nat.digitChar (n / 16), Nat.digitChar (n % 16)] := by decide
  have read : ∀ n < 0x20, Json.codePoint? '0' '0' (Nat.digitChar (n / 16))
      (Nat.digitChar (n % 16)) = some (.char (Char.ofNat n)) := by decide
  refine ⟨_, _, _, _, written c.toNat control, ?_⟩
  rw [read c.toNat control, Char.ofNat_toNat]

theorem Json.text?_named {e c : Char} (named : escaped? e = some c) (r : List Char) :
    text? ('\\' :: e :: r) = (text? r).map fun read => (.char c :: read.1, read.2) := by
  have plain : e ≠ 'u' := by
    rintro rfl
    cases named
  simp [text?, plain, named, Option.map_eq_bind]

theorem Json.text?_escape (c : Char) (r : List Char) :
    text? (Canonical.escape c ++ r) = (text? r).map fun read => (.char c :: read.1, read.2) := by
  unfold Canonical.escape
  split_ifs with _ backslash
  iterate 7
    · subst c
      exact text?_named rfl r
  · rename_i control
    obtain ⟨h₁, h₂, h₃, h₄, digits, read⟩ := codePoint?_hexPadded control
    rw [digits]
    simp [text?, read, Option.map_eq_bind]
  · rename_i visible
    simp [text?, backslash, visible, Option.map_eq_bind]

/-- What is written for a text is read back, up to the closing quote. -/
theorem Json.text?_escaped (cs r : List Char) :
    text? (cs.flatMap Canonical.escape ++ '"' :: r) = some (Text.ofChars cs, r) := by
  induction cs with
  | nil => rfl
  | cons c rest ih =>
    rw [List.flatMap_cons, List.append_assoc, text?_escape, ih]
    rfl

theorem Canonical.quoted_append_inj {cs ds r s : List Char}
    (same : quoted cs ++ r = quoted ds ++ s) : cs = ds ∧ r = s := by
  have body : cs.flatMap escape ++ '"' :: r = ds.flatMap escape ++ '"' :: s := by
    simpa [quoted] using same
  have read := congrArg Json.text? body
  rw [Json.text?_escaped, Json.text?_escaped, Option.some.injEq, Prod.mk.injEq] at read
  exact ⟨Text.ofChars_inj.mp read.1, read.2⟩

end Escapes

/-- No digit comes first. -/
def Ended (r : List Char) : Prop := ∀ c ∈ r.head?, c.isDigit = false

section Numerals

variable {r s : List Char}

theorem ended_nil : Ended [] := by simp [Ended]

theorem ended_cons {c : Char} (other : c.isDigit = false) : Ended (c :: r) := by simpa [Ended]

/-- Digits end where the rest begins. -/
theorem digits_append_inj {ds es : List Char} (digits : ∀ c ∈ ds, c.isDigit = true)
    (digits' : ∀ c ∈ es, c.isDigit = true) (ended : Ended r) (ended' : Ended s)
    (same : ds ++ r = es ++ s) : ds = es ∧ r = s := by
  have none (t : List Char) (ended : Ended t) : t.takeWhile Char.isDigit = [] := by
    cases t with
    | nil => rfl
    | cons c rest => simp [ended c rfl]
  have taken := congrArg (List.takeWhile Char.isDigit) same
  rw [List.takeWhile_append_of_pos digits, List.takeWhile_append_of_pos digits', none r ended,
    none s ended', List.append_nil, List.append_nil] at taken
  subst taken
  exact ⟨rfl, List.append_cancel_left same⟩

theorem exists_toDigits_cons (n : Nat) :
    ∃ c rest, Nat.toDigits 10 n = c :: rest ∧ c.isDigit = true := by
  obtain ⟨c, rest, first⟩ := List.exists_cons_of_ne_nil (Nat.toDigits_ne_nil (n := n) (b := 10))
  exact ⟨c, rest, first, Datum.isDigit_toDigits (first ▸ List.mem_cons_self)⟩

theorem toDigits_append_inj {m n : Nat} (ended : Ended r) (ended' : Ended s)
    (same : Nat.toDigits 10 m ++ r = Nat.toDigits 10 n ++ s) : m = n ∧ r = s := by
  obtain ⟨digits, rest⟩ := digits_append_inj (fun _ => Datum.isDigit_toDigits)
    (fun _ => Datum.isDigit_toDigits) ended ended' same
  have value := congrArg (Nat.ofDigitChars 10 · 0) digits
  simp only [Nat.ofDigitChars_ten_toDigits] at value
  exact ⟨value, rest⟩

theorem Form.numeral_append_inj {m n : Int} (ended : Ended r) (ended' : Ended s)
    (same : numeral m ++ r = numeral n ++ s) : m = n ∧ r = s := by
  have unsigned (k : Nat) (t u : List Char) : Nat.toDigits 10 k ++ t ≠ '-' :: u := by
    obtain ⟨c, rest, first, digit⟩ := exists_toDigits_cons k
    rw [first]
    rintro ⟨⟩
    cases digit
  unfold numeral at same
  split_ifs at same with negative negative'
  · obtain ⟨magnitude, rest⟩ := toDigits_append_inj ended ended' (List.cons.inj same).2
    exact ⟨by omega, rest⟩
  · exact absurd same.symm (unsigned _ _ _)
  · exact absurd same (unsigned _ _ _)
  · obtain ⟨magnitude, rest⟩ := toDigits_append_inj ended ended' same
    exact ⟨by omega, rest⟩

end Numerals

section Legible

variable {α : Type} {write : α → List Char}

/-- What is written for an item, with text after it that does not go on with a digit, is so written for
no other item. -/
def Legible (write : α → List Char) (a : α) : Prop :=
  ∀ b r s, Ended r → Ended s → write a ++ r = write b ++ s → a = b ∧ r = s

/-- A mark that ends a collection. -/
structure Closing (close : Char) : Prop where
  ends : close.isDigit = false
  separate : close ≠ ','

variable {close : Char} {as bs : List α} {r s : List Char}

/-- The items after the first one, each behind a comma. -/
def others (write : α → List Char) (as : List α) : List Char := as.flatMap fun a => ',' :: write a

theorem joined_map_cons (write : α → List Char) (a : α) (as : List α) :
    Canonical.joined ((a :: as).map write) = write a ++ others write as := by
  induction as generalizing a with
  | nil => simp [Canonical.joined, others]
  | cons b rest ih =>
    rw [List.map_cons, List.map_cons, Canonical.joined, ← List.map_cons, ih]
    · simp [others]
    · simp

theorem ended_others (closing : Closing close) (as : List α) (r : List Char) :
    Ended (others write as ++ close :: r) := by
  cases as with
  | nil => exact ended_cons closing.ends
  | cons a rest => exact ended_cons rfl

theorem others_append_inj (closing : Closing close) (legible : ∀ a ∈ as, Legible write a)
    (same : others write as ++ close :: r = others write bs ++ close :: s) : as = bs ∧ r = s := by
  induction as generalizing bs with
  | nil =>
    cases bs with
    | nil => exact ⟨rfl, (List.cons.inj same).2⟩
    | cons b rest => exact absurd (List.cons.inj same).1 closing.separate
  | cons a rest ih =>
    cases bs with
    | nil => exact absurd (List.cons.inj same).1.symm closing.separate
    | cons b rest' =>
      obtain ⟨first, later⟩ := List.forall_mem_cons.mp legible
      have item : write a ++ (others write rest ++ close :: r) =
          write b ++ (others write rest' ++ close :: s) := by
        simpa [others] using same
      obtain ⟨rfl, remaining⟩ :=
        first b _ _ (ended_others closing rest r) (ended_others closing rest' s) item
      obtain ⟨rfl, done⟩ := ih later remaining
      exact ⟨rfl, done⟩

/-- A collection tells its items, none of which starts with the mark that closes it. -/
theorem joined_append_inj (closing : Closing close) (legible : ∀ a ∈ as, Legible write a)
    (opened : ∀ b t u, write b ++ t ≠ close :: u)
    (same : Canonical.joined (as.map write) ++ close :: r =
      Canonical.joined (bs.map write) ++ close :: s) : as = bs ∧ r = s := by
  cases as with
  | nil =>
    cases bs with
    | nil => exact ⟨rfl, (List.cons.inj same).2⟩
    | cons b rest =>
      rw [joined_map_cons, List.append_assoc] at same
      exact absurd same.symm (opened b _ _)
  | cons a rest =>
    rw [joined_map_cons, List.append_assoc] at same
    cases bs with
    | nil => exact absurd same (opened a _ _)
    | cons b rest' =>
      rw [joined_map_cons, List.append_assoc] at same
      obtain ⟨first, later⟩ := List.forall_mem_cons.mp legible
      obtain ⟨rfl, remaining⟩ :=
        first b _ _ (ended_others closing rest r) (ended_others closing rest' s) same
      obtain ⟨rfl, done⟩ := others_append_inj closing later remaining
      exact ⟨rfl, done⟩

end Legible

namespace Form

inductive Kind where
  | null
  | bool
  | integer
  | text
  | list
  | record

def kind : Form → Kind
  | .null => .null
  | .bool _ => .bool
  | .integer _ => .integer
  | .text _ => .text
  | .list _ => .list
  | .record _ => .record

/-- The kind of the forms whose texts start with a character. -/
def Kind.ofFirst (c : Char) : Kind :=
  if c = 'n' then .null
  else if c = 't' ∨ c = 'f' then .bool
  else if c = '"' then .text
  else if c = '[' then .list
  else if c = '{' then .record
  else .integer

theorem Kind.ofFirst_digit {c : Char} (digit : c.isDigit = true) :
    ofFirst c = .integer ∧ c ≠ ']' := by
  have other (d : Char) (letter : d.isDigit = false) : c ≠ d := by
    rintro rfl
    rw [digit] at letter
    cases letter
  refine ⟨?_, other ']' rfl⟩
  simp [ofFirst, other 'n' rfl, other 't' rfl, other 'f' rfl, other '"' rfl, other '[' rfl,
    other '{' rfl]

theorem exists_write_cons (f : Form) :
    ∃ c rest, f.write = c :: rest ∧ Kind.ofFirst c = f.kind ∧ c ≠ ']' := by
  cases f with
  | null => exact ⟨_, _, rfl, rfl, by decide⟩
  | bool b => cases b <;> exact ⟨_, _, rfl, rfl, by decide⟩
  | integer n =>
    change ∃ c rest, numeral n = c :: rest ∧ _
    unfold numeral
    split
    · exact ⟨_, _, rfl, rfl, by decide⟩
    · obtain ⟨c, rest, first, digit⟩ := exists_toDigits_cons n.natAbs
      exact ⟨c, rest, first, Kind.ofFirst_digit digit⟩
  | text cs => exact ⟨_, _, rfl, rfl, by decide⟩
  | list fs => exact ⟨_, _, rfl, rfl, by decide⟩
  | record ms => exact ⟨_, _, rfl, rfl, by decide⟩

theorem kind_of_write_append {f g : Form} {r s : List Char} (same : f.write ++ r = g.write ++ s) :
    f.kind = g.kind := by
  obtain ⟨c, rest, text, kind, _⟩ := exists_write_cons f
  obtain ⟨c', rest', text', kind', _⟩ := exists_write_cons g
  rw [text, text'] at same
  rw [← kind, ← kind', (List.cons.inj same).1]

theorem write_append_ne (f : Form) (r s : List Char) : f.write ++ r ≠ ']' :: s := by
  obtain ⟨c, rest, text, _, other⟩ := exists_write_cons f
  rw [text]
  exact fun same => other (List.cons.inj same).1

theorem writeMember_append_ne (m : List Char × Form) (r s : List Char) :
    writeMember m ++ r ≠ '}' :: s := by
  simp [writeMember, Canonical.quoted]

mutual

/-- The text of a form tells the form, and where it ends. -/
theorem legible (f : Form) : Legible write f := by
  intro g r s ended ended' same
  match f, g, kind_of_write_append same with
  | .null, .null, _ => exact ⟨rfl, List.append_cancel_left same⟩
  | .bool a, .bool b, _ =>
    cases a <;> cases b <;> simp_all [write]
  | .integer m, .integer n, _ =>
    obtain ⟨rfl, rest⟩ := numeral_append_inj ended ended' same
    exact ⟨rfl, rest⟩
  | .text cs, .text ds, _ =>
    obtain ⟨rfl, rest⟩ := Canonical.quoted_append_inj same
    exact ⟨rfl, rest⟩
  | .list fs, .list gs, _ =>
    have items : Canonical.joined (fs.map write) ++ ']' :: r =
        Canonical.joined (gs.map write) ++ ']' :: s := by
      simpa [write, writeItems_eq] using same
    obtain ⟨rfl, rest⟩ := joined_append_inj ⟨by decide, by decide⟩ (legibleItems fs)
      write_append_ne items
    exact ⟨rfl, rest⟩
  | .record ms, .record ns, _ =>
    have members : Canonical.joined (ms.map writeMember) ++ '}' :: r =
        Canonical.joined (ns.map writeMember) ++ '}' :: s := by
      simpa [write, writeMembers_eq] using same
    obtain ⟨rfl, rest⟩ := joined_append_inj ⟨by decide, by decide⟩ (legibleMembers ms)
      writeMember_append_ne members
    exact ⟨rfl, rest⟩

theorem legibleItems (fs : List Form) : ∀ f ∈ fs, Legible write f := by
  match fs with
  | [] => simp
  | f :: rest => exact List.forall_mem_cons.mpr ⟨legible f, legibleItems rest⟩

theorem legibleMembers (ms : List (List Char × Form)) : ∀ m ∈ ms, Legible writeMember m := by
  match ms with
  | [] => simp
  | (key, f) :: rest =>
    refine List.forall_mem_cons.mpr ⟨?_, legibleMembers rest⟩
    rintro ⟨key', g⟩ r s ended ended' same
    simp only [writeMember, List.append_assoc, List.cons_append] at same
    obtain ⟨rfl, value⟩ := Canonical.quoted_append_inj same
    obtain ⟨rfl, rest⟩ := legible f g r s ended ended' (List.cons.inj value).2
    exact ⟨rfl, rest⟩

end

theorem write_injective : Function.Injective write := fun f g same =>
  (legible f g [] [] ended_nil ended_nil (congrArg (· ++ []) same)).1

end Form
end Solvency
