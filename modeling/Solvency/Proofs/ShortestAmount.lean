import Solvency.Proofs.ExactReading
import Solvency.Proofs.Writing

/-! The shortest text of an amount. A decimal is canonical if nothing in it is superfluous: a zero at
either end, or the sign of zero. Amounts are written as canonical decimals, and no text that denotes
the same number is shorter than a canonical one. -/
namespace Solvency

theorem Text.length_trim_le (t : Text) : t.trim.length ≤ t.length := by
  rw [trim, List.length_reverse]
  calc _ ≤ (t.dropWhile CodePoint.isBlank).reverse.length := List.length_dropWhile_le _ _
    _ ≤ t.length := by
      rw [List.length_reverse]
      exact List.length_dropWhile_le _ _

namespace Datum

section Digits

variable {c : Char} {cs ds : List Char}

/-- The number that digits stand for. -/
abbrev number (cs : List Char) : Nat := Nat.ofDigitChars 10 cs 0

theorem number_cons (c : Char) (cs : List Char) :
    number (c :: cs) = 10 ^ cs.length * (c.toNat - '0'.toNat) + number cs := by
  rw [number, Nat.ofDigitChars_cons, Nat.ofDigitChars_eq_ofDigitChars_zero, mul_zero, zero_add]

theorem number_append_singleton (cs : List Char) (c : Char) :
    number (cs ++ [c]) = 10 * number cs + (c.toNat - '0'.toNat) := by
  rw [number, Nat.ofDigitChars_append, Nat.ofDigitChars_cons, Nat.ofDigitChars_nil]

theorem number_lt (digits : ∀ c ∈ cs, c.isDigit = true) : number cs < 10 ^ cs.length := by
  simpa using ofDigitChars_lt digits (n := 0) (k := 0) (by decide)

/-- Only the digit zero stands for nothing. -/
theorem digit_pos (digit : c.isDigit = true) (nonzero : c ≠ '0') : 0 < c.toNat - '0'.toNat := by
  have bounds := Char.isDigit_iff_toNat.mp digit
  have apart : c.toNat ≠ '0'.toNat := fun same => nonzero (Char.toNat_inj.mp same)
  omega

/-- No digit but the only one may be a zero in front. -/
def NoLeadingZero (cs : List Char) : Prop := ∀ rest, cs = '0' :: rest → rest = []

def NoTrailingZero (cs : List Char) : Prop := ∀ front, cs ≠ front ++ ['0']

/-- Digits without superfluous zeros in front are as few as can be. -/
theorem length_le_of_noLeadingZero (digits : ∀ c ∈ cs, c.isDigit = true)
    (minimal : NoLeadingZero cs) (digits' : ∀ c ∈ ds, c.isDigit = true) (nonempty : ds ≠ [])
    (same : number cs = number ds) : cs.length ≤ ds.length := by
  have some_digit : 0 < ds.length := List.length_pos_of_ne_nil nonempty
  cases cs with
  | nil => exact Nat.zero_le _
  | cons c rest =>
    by_cases zero : c = '0'
    · subst zero
      rw [minimal rest rfl]
      exact some_digit
    · have first := digit_pos (digits c List.mem_cons_self) zero
      have below : 10 ^ rest.length < 10 ^ ds.length :=
        calc 10 ^ rest.length ≤ 10 ^ rest.length * (c.toNat - '0'.toNat) :=
              Nat.le_mul_of_pos_right _ first
          _ ≤ number (c :: rest) := by
              rw [number_cons]
              exact Nat.le_add_right _ _
          _ < 10 ^ ds.length := same ▸ number_lt digits'
      exact (Nat.pow_lt_pow_iff_right (by decide)).mp below

/-- Digits without zeros at the end are as few as can be behind the point. -/
theorem length_le_of_noTrailingZero (digits : ∀ c ∈ cs, c.isDigit = true)
    (minimal : NoTrailingZero cs)
    (same : number cs * 10 ^ ds.length = number ds * 10 ^ cs.length) : cs.length ≤ ds.length := by
  by_contra longer
  obtain ⟨k, split⟩ : ∃ k, cs.length = ds.length + k + 1 :=
    ⟨cs.length - ds.length - 1, by omega⟩
  have nonempty : cs ≠ [] := by
    rintro rfl
    simp at split
  obtain ⟨front, c, rfl⟩ := List.eq_nil_or_concat' cs |>.resolve_left nonempty
  -- Digits further behind the point can only be zeros.
  have multiple : number (front ++ [c]) = number ds * 10 ^ k * 10 := by
    apply Nat.eq_of_mul_eq_mul_right (show 0 < 10 ^ ds.length by positivity)
    rw [same, split]
    ring
  rw [number_append_singleton] at multiple
  have digit := digit_le (digits c (by simp))
  have zero : c = '0' := by
    by_contra nonzero
    have positive := digit_pos (digits c (by simp)) nonzero
    omega
  exact minimal front (zero ▸ rfl)

/-- A numeral has no superfluous zeros. -/
theorem noLeadingZero_toDigits (n : Nat) : NoLeadingZero (Nat.toDigits 10 n) := by
  intro rest zero
  by_contra nonempty
  have digits : ∀ c ∈ rest, c.isDigit = true := fun c member =>
    isDigit_toDigits (zero ▸ List.mem_cons_of_mem _ member)
  have value : number rest = n := by
    have whole : number (Nat.toDigits 10 n) = n := Nat.ofDigitChars_ten_toDigits
    rw [zero, number_cons] at whole
    simpa using whole
  have fewer := (Nat.length_toDigits_le_iff (n := n) (by decide)
    (List.length_pos_of_ne_nil nonempty)).mpr (value ▸ number_lt digits)
  rw [zero, List.length_cons] at fewer
  omega

theorem noTrailingZero_fractionDigits (fraction : Nat) :
    NoTrailingZero (fractionDigits fraction) := by
  intro front ends
  have nonempty : fractionDigits fraction ≠ [] := by simp [ends]
  have last := List.rdropWhile_last_not (· == '0') _ nonempty
  simp only [beq_iff_eq] at last
  apply last
  change (fractionDigits fraction).getLast nonempty = '0'
  simp [ends]

end Digits

namespace Decimal

variable {c d : Decimal}

/-- Nothing in the decimal is superfluous: no zero at either end, and no sign of zero. Its fraction has
no more places than an amount. -/
structure Canonical (d : Decimal) : Prop where
  formed : d.WellFormed
  leading : NoLeadingZero d.whole
  places : d.fraction.length ≤ decimalPlaces
  trailing : NoTrailingZero d.fraction
  sign : d.negative = true → d.value ≠ 0

theorem length_chars (d : Decimal) : d.chars.length =
    (if d.negative then 1 else 0) + d.whole.length +
      if d.fraction = [] then 0 else 1 + d.fraction.length := by
  rw [chars, List.length_append, List.length_append]
  congr 1
  · congr 1
    split <;> rfl
  · split
    · rfl
    · rw [List.length_cons, Nat.add_comm]

theorem magnitude_eq_number (d : Decimal) :
    d.magnitude = number d.whole + number d.fraction / 10 ^ d.fraction.length := rfl

theorem magnitude_nonneg (d : Decimal) : 0 ≤ d.magnitude := by
  rw [magnitude]
  positivity

theorem abs_value (d : Decimal) : |d.value| = d.magnitude := by
  have nonneg := d.magnitude_nonneg
  rw [value]
  split
  · rw [abs_neg, abs_of_nonneg nonneg]
  · exact abs_of_nonneg nonneg

/-- The digits before the point are those of the whole units. -/
theorem floor_magnitude (formed : d.WellFormed) : ⌊d.magnitude⌋ = number d.whole := by
  have below : (number d.fraction : ℚ) < 10 ^ d.fraction.length := by
    exact_mod_cast number_lt formed.fraction
  have positive : (0 : ℚ) < 10 ^ d.fraction.length := by positivity
  rw [Int.floor_eq_iff, magnitude_eq_number, Int.cast_natCast]
  exact ⟨le_add_of_nonneg_right (by positivity), by gcongr; exact (div_lt_one positive).mpr below⟩

/-- No decimal of the same number is shorter than a canonical one. -/
theorem Canonical.length_le (canonical : c.Canonical) (formed : d.WellFormed)
    (same : c.value = d.value) : c.chars.length ≤ d.chars.length := by
  have magnitudes : c.magnitude = d.magnitude := by rw [← abs_value, ← abs_value, same]
  have wholes : number c.whole = number d.whole := by
    have floors := congrArg Int.floor magnitudes
    rw [floor_magnitude canonical.formed, floor_magnitude formed] at floors
    exact_mod_cast floors
  have fractions : number c.fraction * 10 ^ d.fraction.length =
      number d.fraction * 10 ^ c.fraction.length := by
    rw [magnitude_eq_number, magnitude_eq_number, wholes, add_right_inj,
      div_eq_div_iff (by positivity) (by positivity)] at magnitudes
    exact_mod_cast magnitudes
  have sign : c.negative = true → d.negative = true := by
    intro negative
    by_contra unsigned
    have negated : -c.magnitude = d.magnitude := by simpa [value, negative, unsigned] using same
    apply canonical.sign negative
    rw [← abs_eq_zero, abs_value]
    have nonneg := c.magnitude_nonneg
    have nonneg' := d.magnitude_nonneg
    linarith
  have whole := length_le_of_noLeadingZero canonical.formed.whole canonical.leading formed.whole
    formed.nonempty wholes
  have fraction := length_le_of_noTrailingZero canonical.formed.fraction canonical.trailing fractions
  have point : d.fraction = [] → c.fraction = [] := by
    intro none
    rw [none] at fraction
    exact List.length_eq_zero_iff.mp (Nat.le_zero.mp fraction)
  rw [length_chars, length_chars]
  split_ifs <;> simp_all <;> omega

end Decimal

theorem value_decimalOf (raw : Int) : (decimalOf raw).value = raw / Fixed.scale := by
  rw [eq_div_iff (by norm_num [Fixed.scale])]
  exact value_decimalOf_mul raw

theorem canonical_decimalOf (raw : Int) : (decimalOf raw).Canonical where
  formed := wellFormed_decimalOf raw
  leading := noLeadingZero_toDigits _
  places := (coefficient_decimalOf raw).1
  trailing := by
    simp only [decimalOf]
    split
    · simp [NoTrailingZero]
    · exact noTrailingZero_fractionDigits _
  sign := by
    intro negative
    have below : raw < 0 := by simpa [decimalOf] using negative
    rw [value_decimalOf]
    exact (div_neg_of_neg_of_pos (by exact_mod_cast below) (by norm_num [Fixed.scale])).ne

/-- Every amount in the range of the protocol is written as a canonical decimal of just its number, and
no text that denotes the number is shorter. No other amount is written in the same way. -/
theorem amountText_shortest (raw : Int) (held : Width.i128.Holds raw) :
    ∃ (t : Text) (d : Decimal), amountText raw = .ok t ∧ t = Text.ofChars d.chars ∧ d.Canonical ∧
      d.value = raw / Fixed.scale ∧ (∀ u, Denotes u (raw / Fixed.scale) → t.length ≤ u.length) ∧
      ∀ raw', amountText raw' = .ok t → raw' = raw := by
  refine ⟨_, decimalOf raw, amountText_eq_ok.mpr ⟨held.spellable, rfl⟩, ?_, canonical_decimalOf raw,
    value_decimalOf raw, ?_, ?_⟩
  · rw [amountChars_eq_chars]
  · rintro u ⟨d, formed, spelled, same⟩
    rw [amountChars_eq_chars]
    calc (Text.ofChars (decimalOf raw).chars).length = (decimalOf raw).chars.length :=
          List.length_map _
      _ ≤ d.chars.length :=
          (canonical_decimalOf raw).length_le formed ((value_decimalOf raw).trans same.symm)
      _ = u.trim.length := by rw [spelled, Text.ofChars, List.length_map]
      _ ≤ u.length := u.length_trim_le
  · intro raw' written
    obtain ⟨_, same⟩ := amountText_eq_ok.mp written
    exact amountChars_injective (Text.ofChars_inj.mp same).symm

/-- A fraction below one, with zeros behind its point. -/
theorem amountText_shortest_fraction : Width.i128.Holds (-1050000000) ∧
    amountText (-1050000000) = .ok "-0.00105" ∧
    ∀ u, Denotes u (-1050000000 / Fixed.scale) → (Text.ofString "-0.00105").length ≤ u.length := by
  have held : Width.i128.Holds (-1050000000) := by decide
  obtain ⟨t, _, written, _, _, _, shortest, _⟩ := amountText_shortest _ held
  have text : amountText (-1050000000) = .ok "-0.00105" :=
    amountText_eq_ok.mpr ⟨held.spellable, by decide +kernel⟩
  obtain rfl := Except.ok.inj (written.symm.trans text)
  exact ⟨held, text, by simpa using shortest⟩

end Datum
end Solvency
