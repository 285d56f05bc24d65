import Solvency.Datum.Key
import Solvency.Proofs.AmountText
import Solvency.Snapshot.Basic

/-! Account keys as texts. What is read as a key is what its digits spell, two to a byte, with a mark in
front perhaps and white space around it. A written key reads back, and one that was read is written
with the mark and its digits in lower case, so texts give one key if they differ in nothing else. -/
namespace Solvency.Datum

section Bytes

theorem hexPadded_two {n : Nat} (byte : n < 256) :
    Numeral.hexPadded 2 n = [Nat.digitChar (n / 16), Nat.digitChar (n % 16)] := by
  rcases Nat.lt_or_ge n 16 with small | large
  · have digits : Nat.toDigits 16 n = [Nat.digitChar n] := Nat.toDigits_of_lt_base small
    have high : n / 16 = 0 := by omega
    have low : n % 16 = n := by omega
    simp only [Numeral.hexPadded, Numeral.padded, digits, high, low]
    rfl
  · have digits : Nat.toDigits 16 n = Nat.toDigits 16 (n / 16) ++ [Nat.digitChar (n % 16)] :=
      Nat.toDigits_of_base_le (by decide) large
    have high : Nat.toDigits 16 (n / 16) = [Nat.digitChar (n / 16)] :=
      Nat.toDigits_of_lt_base (by omega)
    simp only [Numeral.hexPadded, Numeral.padded, digits, high]
    rfl

theorem hexDigit_digitChar : ∀ n < 16, Numeral.isHexDigit (Nat.digitChar n) = true ∧
    Numeral.hexValue (Nat.digitChar n) = n ∧
    0x21 ≤ (Nat.digitChar n).toNat ∧ (Nat.digitChar n).toNat ≤ 0x7E := by
  decide

theorem byteHex_eq (b : UInt8) :
    byteHex b = [Nat.digitChar (b.toNat / 16), Nat.digitChar (b.toNat % 16)] :=
  hexPadded_two b.toNat_lt

theorem bytesOfHex_byteHex (bytes : List UInt8) : bytesOfHex (bytes.flatMap byteHex) = bytes := by
  induction bytes with
  | nil => rfl
  | cons b rest ih =>
    have bound := b.toNat_lt
    have high := (hexDigit_digitChar (b.toNat / 16) (by omega)).2.1
    have low := (hexDigit_digitChar (b.toNat % 16) (by omega)).2.1
    rw [List.flatMap_cons, byteHex_eq]
    simp only [List.cons_append, List.nil_append, bytesOfHex, high, low, ih, Nat.div_add_mod,
      UInt8.ofNat_toNat]

theorem length_byteHex (bytes : List UInt8) :
    (bytes.flatMap byteHex).length = 2 * bytes.length := by
  induction bytes with
  | nil => rfl
  | cons b rest ih =>
    rw [List.flatMap_cons, List.length_append, ih, byteHex_eq]
    simp only [List.length_cons, List.length_nil]
    omega

theorem mem_byteHex {bytes : List UInt8} {c : Char} (member : c ∈ bytes.flatMap byteHex) :
    Numeral.isHexDigit c = true ∧ 0x21 ≤ c.toNat ∧ c.toNat ≤ 0x7E := by
  obtain ⟨b, _, listed⟩ := List.mem_flatMap.mp member
  have bound := b.toNat_lt
  rw [byteHex_eq] at listed
  rcases List.mem_pair.mp listed with rfl | rfl
  · obtain ⟨digit, _, visible⟩ := hexDigit_digitChar (b.toNat / 16) (by omega)
    exact ⟨digit, visible⟩
  · obtain ⟨digit, _, visible⟩ := hexDigit_digitChar (b.toNat % 16) (by omega)
    exact ⟨digit, visible⟩

theorem length_bytesOfHex {digits : List Char} {n : Nat} (pairs : digits.length = 2 * n) :
    (bytesOfHex digits).length = n := by
  induction n generalizing digits with
  | zero =>
    obtain rfl : digits = [] := List.length_eq_zero_iff.mp pairs
    rfl
  | succ n ih =>
    match digits, pairs with
    | high :: low :: rest, pairs =>
      have shorter : rest.length = 2 * n := by
        simp only [List.length_cons] at pairs
        omega
      rw [bytesOfHex, List.length_cons, ih shorter]

/-- What the codec relies on for single digits, all of which are ASCII. -/
theorem hexDigit_ascii : ∀ n < 128, Numeral.isHexDigit (Char.ofNat n) = true →
    Numeral.hexValue (Char.ofNat n) < 16 ∧
    Nat.digitChar (Numeral.hexValue (Char.ofNat n)) = (Char.ofNat n).toLower ∧
    Numeral.hexValue (Char.ofNat n).toLower = Numeral.hexValue (Char.ofNat n) := by
  decide

theorem hexDigit_spec {c : Char} (hex : Numeral.isHexDigit c = true) :
    Numeral.hexValue c < 16 ∧ Nat.digitChar (Numeral.hexValue c) = c.toLower ∧
    Numeral.hexValue c.toLower = Numeral.hexValue c := by
  have ascii : c.toNat < 128 := by
    simp only [Numeral.isHexDigit, Bool.or_eq_true, Bool.and_eq_true, decide_eq_true_eq,
      Char.isDigit_iff_toNat, Char.le_def, UInt32.le_iff_toNat_le] at hex
    change (_ ∧ c.toNat ≤ 0x39 ∨ _ ∧ c.toNat ≤ 0x66) ∨ _ ∧ c.toNat ≤ 0x46 at hex
    omega
  have row := hexDigit_ascii c.toNat ascii
  rw [Char.ofNat_toNat] at row
  exact row hex

theorem byteHex_ofNat {high low : Nat} (small : high < 16) (small' : low < 16) :
    byteHex (UInt8.ofNat (16 * high + low)) = [Nat.digitChar high, Nat.digitChar low] := by
  have value : (UInt8.ofNat (16 * high + low)).toNat = 16 * high + low := by
    rw [UInt8.toNat_ofNat']
    omega
  rw [byteHex_eq, value]
  congr 2
  · omega
  · congr 1
    omega

/-- The bytes of digits are written in these digits, all of them in lower case. -/
theorem byteHex_bytesOfHex {digits : List Char} (hex : ∀ c ∈ digits, Numeral.isHexDigit c = true)
    {n : Nat} (pairs : digits.length = 2 * n) :
    (bytesOfHex digits).flatMap byteHex = digits.map Char.toLower := by
  fun_induction bytesOfHex digits generalizing n with
  | case1 high low rest ih =>
    simp only [List.forall_mem_cons] at hex
    obtain ⟨first, second, others⟩ := hex
    obtain ⟨small, upper, _⟩ := hexDigit_spec first
    obtain ⟨small', lower, _⟩ := hexDigit_spec second
    have shorter : rest.length = 2 * (n - 1) := by
      simp only [List.length_cons] at pairs
      omega
    rw [List.flatMap_cons, byteHex_ofNat small small', upper, lower, ih others shorter]
    rfl
  | case2 digits unpaired =>
    match digits, unpaired with
    | [], _ => rfl
    | [c], _ =>
      rw [List.length_singleton] at pairs
      omega
    | high :: low :: rest, unpaired => exact (unpaired high low rest rfl).elim

/-- The case of a digit is of no account. -/
theorem bytesOfHex_lower {digits : List Char} (hex : ∀ c ∈ digits, Numeral.isHexDigit c = true) :
    bytesOfHex (digits.map Char.toLower) = bytesOfHex digits := by
  fun_induction bytesOfHex digits with
  | case1 high low rest ih =>
    simp only [List.forall_mem_cons] at hex
    obtain ⟨first, second, others⟩ := hex
    simp only [List.map_cons, bytesOfHex, (hexDigit_spec first).2.2, (hexDigit_spec second).2.2,
      ih others]
  | case2 digits unpaired =>
    match digits, unpaired with
    | [], _ => rfl
    | [c], _ => rfl
    | high :: low :: rest, unpaired => exact (unpaired high low rest rfl).elim

theorem bytesOfHex_eq_iff {digits digits' : List Char} {n : Nat}
    (hex : ∀ c ∈ digits, Numeral.isHexDigit c = true) (pairs : digits.length = 2 * n)
    (hex' : ∀ c ∈ digits', Numeral.isHexDigit c = true) (pairs' : digits'.length = 2 * n) :
    bytesOfHex digits = bytesOfHex digits' ↔
      digits.map Char.toLower = digits'.map Char.toLower := by
  constructor
  · intro same
    rw [← byteHex_bytesOfHex hex pairs, ← byteHex_bytesOfHex hex' pairs', same]
  · intro same
    rw [← bytesOfHex_lower hex, ← bytesOfHex_lower hex', same]

end Bytes

section Marks

/-- What may stand in front of the digits of a key. -/
def marks : List (List Char) := [[], ['0', 'x'], ['0', 'X']]

theorem exists_mark (cs : List Char) : ∃ mark ∈ marks, cs = mark ++ unmarked cs := by
  unfold unmarked
  split
  · exact ⟨['0', 'x'], by decide, rfl⟩
  · exact ⟨['0', 'X'], by decide, rfl⟩
  · exact ⟨[], by decide, rfl⟩

/-- No mark is mistaken for digits, nor are digits for a mark. -/
theorem unmarked_append {mark digits : List Char} (listed : mark ∈ marks) (nonempty : digits ≠ [])
    (hex : ∀ c ∈ digits, Numeral.isHexDigit c = true) : unmarked (mark ++ digits) = digits := by
  obtain ⟨d, rest, rfl⟩ := List.exists_cons_of_ne_nil nonempty
  simp only [marks, List.mem_cons, List.not_mem_nil, or_false] at listed
  rcases listed with rfl | rfl | rfl
  · -- What looks like a mark in front of digits has a letter that is no digit.
    rw [List.nil_append]
    unfold unmarked
    split
    · rename_i same
      have x : Numeral.isHexDigit 'x' = true := hex 'x' (by rw [same]; simp)
      contradiction
    · rename_i same
      have x : Numeral.isHexDigit 'X' = true := hex 'X' (by rw [same]; simp)
      contradiction
    · rfl
  · rfl
  · rfl

end Marks

/-- White space aside, the text is a mark and digits, two to each of `n` bytes. -/
structure SpellsKey (t : Text) (n : Nat) (digits : List Char) : Prop where
  spelled : ∃ mark ∈ marks, t.trim = Text.ofChars (mark ++ digits)
  hex : ∀ c ∈ digits, Numeral.isHexDigit c = true
  length : digits.length = 2 * n

theorem hexDigits?_eq_some_iff {t : Text} {digits : List Char} :
    hexDigits? t = some digits ↔ digits ≠ [] ∧ (∀ c ∈ digits, Numeral.isHexDigit c = true) ∧
      ∃ mark ∈ marks, t.trim = Text.ofChars (mark ++ digits) := by
  simp only [hexDigits?, trimmedChars?, Option.bind_eq_bind, Option.bind_eq_some_iff,
    Text.chars?_eq_some_iff]
  constructor
  · rintro ⟨cs, trimmed, read⟩
    split at read
    · rename_i accepted
      cases read
      simp only [Bool.and_eq_true, Bool.not_eq_true', List.isEmpty_eq_false_iff,
        List.all_eq_true] at accepted
      obtain ⟨mark, listed, split⟩ := exists_mark cs
      exact ⟨accepted.1, accepted.2, mark, listed, by rw [trimmed, ← split]⟩
    · contradiction
  · rintro ⟨nonempty, hex, mark, listed, trimmed⟩
    refine ⟨_, trimmed, ?_⟩
    rw [unmarked_append listed nonempty hex, if_pos]
    simpa [nonempty] using hex

section Reading

variable {name : String} {t : Text} {n : Nat} {bytes : List UInt8}

/-- The digits of a key are found behind its mark. -/
theorem SpellsKey.found {digits : List Char} (positive : 1 ≤ n) (spells : SpellsKey t n digits) :
    hexDigits? t = some digits := by
  have nonempty : digits ≠ [] := by
    rintro rfl
    have length := spells.length
    rw [List.length_nil] at length
    omega
  exact hexDigits?_eq_some_iff.mpr ⟨nonempty, spells.hex, spells.spelled⟩

/-- A text is read as a key exactly if it spells one of the length asked for. -/
theorem key_eq_ok_iff (positive : 1 ≤ n) : key name (.integer n) (.text t) = .ok bytes ↔
    ∃ digits, SpellsKey t n digits ∧ bytesOfHex digits = bytes := by
  have wide : ¬ (n : Int) < 1 := by omega
  simp only [key, wide, if_false]
  constructor
  · intro read
    split at read
    · exact absurd read (fail_ne_ok _ _)
    · rename_i digits found
      obtain ⟨_, hex, spelled⟩ := hexDigits?_eq_some_iff.mp found
      split at read
      · rename_i even
        exact ⟨digits, ⟨spelled, hex, by omega⟩, Except.ok.inj read⟩
      · exact absurd read (fail_ne_ok _ _)
  · rintro ⟨digits, spells, rfl⟩
    rw [spells.found positive]
    have even : (digits.length : Int) = 2 * (n : Int) := by
      rw [spells.length]
      omega
    exact if_pos even

theorem spellsKey_keyText (length : bytes.length = n) :
    SpellsKey (keyText bytes) n (bytes.flatMap byteHex) where
  spelled := by
    refine ⟨['0', 'x'], by decide, Text.trim_ofChars ?_⟩
    exact List.forall_mem_cons.mpr ⟨by decide, List.forall_mem_cons.mpr
      ⟨by decide, fun c member => (mem_byteHex member).2⟩⟩
  hex c member := (mem_byteHex member).1
  length := by rw [length_byteHex, length]

theorem key_keyText (positive : 1 ≤ n) (length : bytes.length = n) (name : String) :
    key name (.integer n) (.text (keyText bytes)) = .ok bytes :=
  (key_eq_ok_iff positive).mpr ⟨_, spellsKey_keyText length, bytesOfHex_byteHex bytes⟩

/-- A text spells a key in one way. -/
theorem SpellsKey.unique {digits digits' : List Char} (positive : 1 ≤ n)
    (first : SpellsKey t n digits) (second : SpellsKey t n digits') : digits = digits' :=
  Option.some.inj ((first.found positive).symm.trans (second.found positive))

theorem length_of_key {name : String} {width : Nat} {d : Document} {bytes : List UInt8}
    (read : key name (.integer width) d = .ok bytes) : bytes.length = width := by
  unfold key at read
  split at read
  · dsimp only at read
    split at read
    · exact absurd read (fail_ne_ok _ _)
    · split at read
      · exact absurd read (fail_ne_ok _ _)
      · split at read
        · rename_i even
          cases read
          exact length_bytesOfHex (by omega)
        · exact absurd read (fail_ne_ok _ _)
  · exact absurd read (fail_ne_ok _ _)

end Reading

/-- A written key reads back. A text is read as a key of `n` bytes exactly if it is twice as many
hexadecimal digits, behind a mark perhaps and with white space around it perhaps, and the key is
written with the mark and these digits in lower case. Two texts give one key exactly if nothing but
white space, mark and case tells them apart. -/
theorem key_spelling (name : String) {n : Nat} (positive : 1 ≤ n) :
    (∀ bytes : List UInt8, bytes.length = n →
      key name (.integer n) (.text (keyText bytes)) = .ok bytes) ∧
    (∀ t, (∃ bytes, key name (.integer n) (.text t) = .ok bytes) ↔ ∃ digits, SpellsKey t n digits) ∧
    (∀ t digits bytes, SpellsKey t n digits → key name (.integer n) (.text t) = .ok bytes →
      keyText bytes = Text.ofChars ('0' :: 'x' :: digits.map Char.toLower)) ∧
    ∀ t t' bytes bytes', key name (.integer n) (.text t) = .ok bytes →
      key name (.integer n) (.text t') = .ok bytes' →
      (bytes = bytes' ↔ ∃ digits digits', SpellsKey t n digits ∧ SpellsKey t' n digits' ∧
        digits.map Char.toLower = digits'.map Char.toLower) := by
  refine ⟨fun bytes length => key_keyText positive length name, fun t => ?_, ?_, ?_⟩
  · simp only [key_eq_ok_iff positive]
    constructor
    · rintro ⟨_, digits, spells, _⟩
      exact ⟨digits, spells⟩
    · rintro ⟨digits, spells⟩
      exact ⟨_, digits, spells, rfl⟩
  · intro t digits bytes spells read
    obtain ⟨_, spells', rfl⟩ := (key_eq_ok_iff positive).mp read
    obtain rfl := spells.unique positive spells'
    rw [keyText, byteHex_bytesOfHex spells.hex spells.length]
  · intro t t' bytes bytes' read read'
    obtain ⟨digits, spells, rfl⟩ := (key_eq_ok_iff positive).mp read
    obtain ⟨digits', spells', rfl⟩ := (key_eq_ok_iff positive).mp read'
    rw [bytesOfHex_eq_iff spells.hex spells.length spells'.hex spells'.length]
    constructor
    · intro same
      exact ⟨digits, digits', spells, spells', same⟩
    · rintro ⟨ds, ds', first, second, same⟩
      rw [spells.unique positive first, spells'.unique positive second, same]

/-- White space, the mark and the case of digits do not matter for a key of two bytes. -/
theorem key_spelling_blanks : 1 ≤ 2 ∧
    (key "key" (.integer (2 : Nat)) (.text (keyText [0xAB, 0x0D])) = .ok [0xAB, 0x0D]) ∧
    ∃ bytes, key "key" (.integer (2 : Nat)) " 0XAB0d\u3000" = .ok bytes ∧
      keyText bytes = "0xab0d" ∧
      ∀ bytes', key "key" (.integer (2 : Nat)) "ab0D" = .ok bytes' → bytes = bytes' := by
  obtain ⟨back, accepted, written, same⟩ := key_spelling "key" (show 1 ≤ 2 by decide)
  have spells : SpellsKey " 0XAB0d\u3000" 2 ['A', 'B', '0', 'd'] :=
    ⟨⟨['0', 'X'], by decide, by decide⟩, List.all_eq_true.mp (by decide), by decide⟩
  have spells' : SpellsKey "ab0D" 2 ['a', 'b', '0', 'D'] :=
    ⟨⟨[], by decide, by decide⟩, List.all_eq_true.mp (by decide), by decide⟩
  obtain ⟨bytes, read⟩ := (accepted _).mpr ⟨_, spells⟩
  refine ⟨by decide, back _ rfl, bytes, read, written _ _ _ spells read, fun bytes' read' => ?_⟩
  exact (same _ _ _ _ read read').mpr ⟨_, _, spells, spells', by decide⟩

end Solvency.Datum
