import Mathlib.Data.List.DropRight
import Mathlib.Data.Rat.Cast.Order
import Mathlib.Tactic.FieldSimp
import Solvency.Datum.Amount

/-! Decimals as texts. A plain decimal has one spelling and denotes one number. What is read as a
decimal is what is spelled so, with white space around it perhaps, whatever number it denotes. -/
namespace Solvency

/-- Printable ASCII but the space is no white space. -/
theorem CodePoint.not_isBlank {c : Char} (visible : 0x21 ≤ c.toNat ∧ c.toNat ≤ 0x7E) :
    (CodePoint.char c).isBlank = false := by
  change inRanges blankRanges c.toNat = false
  simp only [inRanges, blankRanges, List.any_cons, List.any_nil, Bool.or_false,
    Bool.or_eq_false_iff, Bool.and_eq_false_iff, decide_eq_false_iff_not]
  omega

theorem Text.trim_ofChars {cs : List Char} (visible : ∀ c ∈ cs, 0x21 ≤ c.toNat ∧ c.toNat ≤ 0x7E) :
    (Text.ofChars cs).trim = Text.ofChars cs := by
  have solid (p) (member : p ∈ Text.ofChars cs) : ¬ p.isBlank = true := by
    obtain ⟨c, listed, rfl⟩ := List.mem_map.mp member
    simp [CodePoint.not_isBlank (visible c listed)]
  have start : (Text.ofChars cs).dropWhile CodePoint.isBlank = Text.ofChars cs :=
    List.dropWhile_eq_self_iff.mpr fun _ => solid _ (List.getElem_mem _)
  rw [Text.trim, start]
  exact List.rdropWhile_eq_self_iff.mpr fun nonempty => solid _ (List.getLast_mem nonempty)

theorem Text.chars?_eq_some_iff {t : Text} {cs : List Char} :
    t.chars? = some cs ↔ t = Text.ofChars cs := by
  constructor
  · intro read
    induction t generalizing cs with
    | nil =>
      cases read
      rfl
    | cons p rest ih =>
      simp only [chars?, List.mapM_cons, Option.bind_eq_bind, Option.bind_eq_some_iff] at read
      obtain ⟨c, first, others, read, made⟩ := read
      cases made
      cases p with
      | char c' =>
        cases first
        rw [ih read]
        rfl
      | half h => cases first
  · rintro rfl
    exact chars?_ofChars cs

namespace Datum

theorem visible_of_isDigit {c : Char} (digit : c.isDigit = true) :
    0x21 ≤ c.toNat ∧ c.toNat ≤ 0x7E := by
  have bounds := Char.isDigit_iff_toNat.mp digit
  change 0x30 ≤ c.toNat ∧ c.toNat ≤ 0x39 at bounds
  omega

theorem isNumeral_iff {cs : List Char} :
    isNumeral cs = true ↔ cs ≠ [] ∧ ∀ c ∈ cs, c.isDigit = true := by
  simp [isNumeral]

theorem digit_le {c : Char} (digit : c.isDigit = true) : c.toNat - '0'.toNat ≤ 9 := by
  have bounds := Char.isDigit_iff_toNat.mp digit
  change 0x30 ≤ c.toNat ∧ c.toNat ≤ 0x39 at bounds
  change c.toNat - 0x30 ≤ 9
  omega

/-- Every digit makes the number ten times as large at most. -/
theorem ofDigitChars_lt {cs : List Char} (digits : ∀ c ∈ cs, c.isDigit = true) {n k : Nat}
    (start : n < 10 ^ k) : Nat.ofDigitChars 10 cs n < 10 ^ (k + cs.length) := by
  induction cs generalizing n k with
  | nil => exact start
  | cons c rest ih =>
    obtain ⟨first, others⟩ := List.forall_mem_cons.mp digits
    have digit := digit_le first
    have step : 10 * n + (c.toNat - '0'.toNat) < 10 ^ (k + 1) := by
      rw [Nat.pow_succ]
      omega
    rw [Nat.ofDigitChars_cons, List.length_cons, Nat.add_comm rest.length, ← Nat.add_assoc]
    exact ih others step

theorem signed_append (cs : List Char) :
    (if (signed cs).1 then ['-'] else []) ++ (signed cs).2 = cs := by
  unfold signed
  split <;> rfl

namespace Decimal

/-- The spelling: a minus sign or none, digits, and a point with more digits if there are any. -/
def chars (d : Decimal) : List Char :=
  (if d.negative then ['-'] else []) ++ d.whole ++
    if d.fraction = [] then [] else '.' :: d.fraction

/-- At least one digit stands before the point, and nothing but digits on either side of it. -/
structure WellFormed (d : Decimal) : Prop where
  nonempty : d.whole ≠ []
  whole : ∀ c ∈ d.whole, c.isDigit = true
  fraction : ∀ c ∈ d.fraction, c.isDigit = true

/-- The number that a decimal denotes but for its sign. -/
def magnitude (d : Decimal) : ℚ :=
  Nat.ofDigitChars 10 d.whole 0 + Nat.ofDigitChars 10 d.fraction 0 / 10 ^ d.fraction.length

/-- The number that a decimal denotes. -/
def value (d : Decimal) : ℚ := if d.negative then -d.magnitude else d.magnitude

variable {d : Decimal} {cs : List Char}

theorem signed_chars (formed : d.WellFormed) : signed d.chars =
    (d.negative, d.whole ++ if d.fraction = [] then [] else '.' :: d.fraction) := by
  obtain ⟨c, rest, digits⟩ := List.exists_cons_of_ne_nil formed.nonempty
  have unsigned : c ≠ '-' := by
    rintro rfl
    exact absurd (formed.whole '-' (digits ▸ List.mem_cons_self)) (by decide)
  cases signed_eq : d.negative with
  | true => simp [chars, signed, signed_eq]
  | false => simp [chars, signed, signed_eq, digits, unsigned]

/-- A well-formed decimal is read from its spelling. -/
theorem ofChars?_chars (formed : d.WellFormed) : ofChars? d.chars = some d := by
  obtain ⟨negative, whole, fraction⟩ := d
  have nonempty : whole ≠ [] := formed.nonempty
  simp only [ofChars?, signed_chars formed]
  cases fraction with
  | nil =>
    rw [if_pos rfl, List.append_nil, List.takeWhile_eq_self_iff.mpr formed.whole,
      List.dropWhile_eq_nil_iff.mpr formed.whole]
    simp [nonempty]
  | cons c rest =>
    have numeral : isNumeral (c :: rest) = true :=
      isNumeral_iff.mpr ⟨List.cons_ne_nil c rest, formed.fraction⟩
    have stop : ('.' :: c :: rest).takeWhile Char.isDigit = [] := rfl
    have point : ('.' :: c :: rest).dropWhile Char.isDigit = '.' :: c :: rest := rfl
    rw [if_neg (List.cons_ne_nil c rest), List.takeWhile_append_of_pos formed.whole,
      List.dropWhile_append_of_pos formed.whole, stop, point]
    simp [nonempty, numeral]

/-- What is read as a decimal is its spelling. -/
theorem ofChars?_eq_some_iff : ofChars? cs = some d ↔ d.WellFormed ∧ cs = d.chars := by
  constructor
  · intro read
    have spelled := signed_append cs
    simp only [ofChars?] at read
    generalize (signed cs).1 = negative at read spelled
    generalize (signed cs).2 = unsigned at read spelled
    have digits : ∀ c ∈ unsigned.takeWhile Char.isDigit, c.isDigit = true :=
      fun c => List.mem_takeWhile_imp
    rw [← List.takeWhile_append_dropWhile (p := Char.isDigit) (l := unsigned),
      ← List.append_assoc] at spelled
    split at read
    · cases read
    · rename_i some_digit
      have nonempty : unsigned.takeWhile Char.isDigit ≠ [] := by simpa using some_digit
      split at read
      · rename_i rest
        cases read
        refine ⟨⟨nonempty, digits, by simp⟩, ?_⟩
        rw [← spelled, rest]
        simp [chars]
      · rename_i fraction rest
        split at read
        · rename_i numeral
          cases read
          obtain ⟨some_digit, fraction_digits⟩ := isNumeral_iff.mp numeral
          refine ⟨⟨nonempty, digits, fraction_digits⟩, ?_⟩
          rw [← spelled, rest]
          simp [chars, some_digit]
        · cases read
      · cases read
  · rintro ⟨formed, rfl⟩
    exact ofChars?_chars formed

/-- What is read from a text is a decimal that is spelled there, between white space. -/
theorem ofText?_eq_some_iff {t : Text} :
    ofText? t = some d ↔ d.WellFormed ∧ t.trim = Text.ofChars d.chars := by
  simp only [ofText?, trimmedChars?, Option.bind_eq_bind, Option.bind_eq_some_iff,
    ofChars?_eq_some_iff, Text.chars?_eq_some_iff]
  constructor
  · rintro ⟨_, spelled, formed, rfl⟩
    exact ⟨formed, spelled⟩
  · rintro ⟨formed, spelled⟩
    exact ⟨_, spelled, formed, rfl⟩

theorem visible_chars (formed : d.WellFormed) :
    ∀ c ∈ d.chars, 0x21 ≤ c.toNat ∧ c.toNat ≤ 0x7E := by
  intro c member
  rcases List.mem_append.mp member with unsigned | rest
  · rcases List.mem_append.mp unsigned with minus | whole
    · split at minus
      · rw [List.mem_singleton.mp minus]
        decide
      · cases minus
    · exact visible_of_isDigit (formed.whole c whole)
  · split at rest
    · cases rest
    · rcases List.mem_cons.mp rest with rfl | fraction
      · decide
      · exact visible_of_isDigit (formed.fraction c fraction)

/-- The digits as one number, and where the point stands. -/
theorem magnitude_eq (d : Decimal) :
    d.magnitude = (d.coefficient : ℚ) / 10 ^ d.fraction.length := by
  have split : d.coefficient =
      10 ^ d.fraction.length * Nat.ofDigitChars 10 d.whole 0 + Nat.ofDigitChars 10 d.fraction 0 := by
    rw [coefficient, Nat.ofDigitChars_append, Nat.ofDigitChars_eq_ofDigitChars_zero]
  rw [magnitude, split]
  push_cast
  field_simp

theorem coefficient_lt (formed : d.WellFormed) :
    d.coefficient < 10 ^ (d.whole.length + d.fraction.length) := by
  have digits : ∀ c ∈ d.whole ++ d.fraction, c.isDigit = true :=
    List.forall_mem_append.mpr ⟨formed.whole, formed.fraction⟩
  simpa [coefficient] using ofDigitChars_lt digits (n := 0) (k := 0) (by decide)

end Decimal

/-- The text spells a decimal of the number, with white space around it perhaps. -/
def Denotes (t : Text) (q : ℚ) : Prop :=
  ∃ d : Decimal, d.WellFormed ∧ t.trim = Text.ofChars d.chars ∧ d.value = q

theorem denotes_iff {t : Text} {q : ℚ} :
    Denotes t q ↔ ∃ d, Decimal.ofText? t = some d ∧ d.value = q := by
  simp only [Denotes, Decimal.ofText?_eq_some_iff, and_assoc]

/-- A text denotes one number at most. -/
theorem Denotes.unique {t : Text} {q q' : ℚ} (first : Denotes t q) (second : Denotes t q') :
    q = q' := by
  obtain ⟨d, read, rfl⟩ := denotes_iff.mp first
  obtain ⟨d', read', rfl⟩ := denotes_iff.mp second
  rw [Option.some.inj (read.symm.trans read')]

end Datum
end Solvency
