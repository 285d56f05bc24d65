import Solvency.Proofs.DecimalText
import Solvency.Proofs.Precision
import Solvency.Proofs.Success
import Solvency.Width

/-! Amounts as texts. What is written is the spelling of a decimal, and different amounts are written in
different ways. What is read from a text has no more digits than the precision in which it is scaled. -/
namespace Solvency

namespace Datum

theorem isDigit_toDigits {n : Nat} {c : Char} (member : c ∈ Nat.toDigits 10 n) : c.isDigit = true :=
  Nat.isDigit_of_mem_toDigits (by decide) (by decide) member

section Fractions

theorem split_zeros (cs : List Char) : ∃ k,
    cs = (cs.reverse.dropWhile (· == '0')).reverse ++ List.replicate k '0' := by
  refine ⟨(cs.rtakeWhile (· == '0')).length, ?_⟩
  have zeros : cs.rtakeWhile (· == '0') =
      List.replicate (cs.rtakeWhile (· == '0')).length '0' :=
    List.eq_replicate_iff.mpr ⟨rfl, fun c member => by simpa using List.mem_rtakeWhile_imp member⟩
  rw [← zeros]
  exact List.rdropWhile_append_rtakeWhile.symm

/-- The digits behind the point, with the zeros that are left out at the end. -/
theorem fractionDigits_padded {f : Nat} (below : f < 10 ^ decimalPlaces) : ∃ k,
    (fractionDigits f).length + k = decimalPlaces ∧
    (∀ c ∈ fractionDigits f, c.isDigit = true) ∧
    Nat.ofDigitChars 10 (fractionDigits f) 0 * 10 ^ k = f := by
  have short : (Nat.toDigits 10 f).length ≤ decimalPlaces :=
    (Nat.length_toDigits_le_iff (by decide) (by decide)).mpr below
  obtain ⟨k, padded⟩ := split_zeros
    (List.replicate (decimalPlaces - (Nat.toDigits 10 f).length) '0' ++ Nat.toDigits 10 f)
  change _ = fractionDigits f ++ _ at padded
  refine ⟨k, ?_, ?_, ?_⟩
  · have lengths := congrArg List.length padded
    simp only [List.length_append, List.length_replicate] at lengths
    omega
  · intro c member
    have listed : c ∈ fractionDigits f ++ List.replicate k '0' := List.mem_append_left _ member
    rw [← padded, List.mem_append] at listed
    rcases listed with zero | digit
    · rw [(List.mem_replicate.mp zero).2]
      rfl
    · exact isDigit_toDigits digit
  · have value := congrArg (Nat.ofDigitChars 10 · 0) padded
    simp only [Nat.ofDigitChars_append, Nat.ofDigitChars_replicate_zero, mul_zero,
      Nat.ofDigitChars_ten_toDigits] at value
    rw [mul_comm, ← value]

theorem fractionDigits_ne_nil {f : Nat} (positive : 0 < f) (below : f < 10 ^ decimalPlaces) :
    fractionDigits f ≠ [] := by
  intro empty
  obtain ⟨k, _, _, value⟩ := fractionDigits_padded below
  rw [empty, Nat.ofDigitChars_nil, zero_mul] at value
  omega

end Fractions

section Decimals

variable (raw : Int)

/-- The digits of an amount without its sign. -/
def unsignedChars (n : Nat) : List Char :=
  if n % Fixed.scale.toNat = 0 then Nat.toDigits 10 (n / Fixed.scale.toNat)
  else Nat.toDigits 10 (n / Fixed.scale.toNat) ++ '.' :: fractionDigits (n % Fixed.scale.toNat)

theorem amountChars_eq : amountChars raw =
    if raw < 0 then '-' :: unsignedChars raw.natAbs else unsignedChars raw.natAbs := rfl

/-- The decimal that an amount is written as. -/
def decimalOf : Decimal where
  negative := raw < 0
  whole := Nat.toDigits 10 (raw.natAbs / Fixed.scale.toNat)
  fraction := if raw.natAbs % Fixed.scale.toNat = 0 then []
    else fractionDigits (raw.natAbs % Fixed.scale.toNat)

theorem fraction_lt (n : Nat) : n % Fixed.scale.toNat < 10 ^ decimalPlaces :=
  Nat.mod_lt _ (by decide)

theorem wellFormed_decimalOf : (decimalOf raw).WellFormed where
  nonempty := Nat.toDigits_ne_nil
  whole c member := isDigit_toDigits member
  fraction c member := by
    obtain ⟨_, _, digits, _⟩ := fractionDigits_padded (fraction_lt raw.natAbs)
    simp only [decimalOf] at member
    split at member
    · cases member
    · exact digits c member

theorem amountChars_eq_chars : amountChars raw = (decimalOf raw).chars := by
  have unsigned : unsignedChars raw.natAbs = (decimalOf raw).whole ++
      if (decimalOf raw).fraction = [] then [] else '.' :: (decimalOf raw).fraction := by
    simp only [unsignedChars, decimalOf]
    split
    · simp
    · rename_i fractional
      rw [if_neg (fractionDigits_ne_nil (Nat.pos_of_ne_zero fractional) (fraction_lt raw.natAbs))]
  rw [amountChars_eq, unsigned, Decimal.chars]
  by_cases negative : raw < 0 <;> simp [decimalOf, negative]

theorem ofText?_amountChars :
    Decimal.ofText? (Text.ofChars (amountChars raw)) = some (decimalOf raw) := by
  have formed := wellFormed_decimalOf raw
  rw [amountChars_eq_chars, Decimal.ofText?_eq_some_iff]
  exact ⟨formed, Text.trim_ofChars (Decimal.visible_chars formed)⟩

theorem coefficient_decimalOf : (decimalOf raw).fraction.length ≤ decimalPlaces ∧
    (decimalOf raw).coefficient * 10 ^ (decimalPlaces - (decimalOf raw).fraction.length) =
      raw.natAbs := by
  have split : raw.natAbs / Fixed.scale.toNat * 10 ^ decimalPlaces +
      raw.natAbs % Fixed.scale.toNat = raw.natAbs := by
    have scale : 10 ^ decimalPlaces = Fixed.scale.toNat := by decide
    rw [scale, mul_comm]
    exact Nat.div_add_mod _ _
  simp only [decimalOf, Decimal.coefficient]
  split_ifs with zero
  · simp only [List.length_nil, Nat.zero_le, List.append_nil, Nat.ofDigitChars_ten_toDigits,
      Nat.sub_zero, true_and]
    omega
  · obtain ⟨k, places, _, value⟩ := fractionDigits_padded (fraction_lt raw.natAbs)
    have rest : decimalPlaces - (fractionDigits (raw.natAbs % Fixed.scale.toNat)).length = k := by
      omega
    refine ⟨by omega, ?_⟩
    rw [Nat.ofDigitChars_append, Nat.ofDigitChars_ten_toDigits,
      Nat.ofDigitChars_eq_ofDigitChars_zero, rest, add_mul, value, mul_right_comm, ← pow_add,
      places, mul_comm, split]

end Decimals

section Scale

variable (c e : Nat)

theorem rounded_eq : (Scaled.mk c e).rounded =
    ⟨roundHalfEven c (10 ^ (digitCount c - precision)), (e + (digitCount c - precision) : Nat)⟩ := by
  have least : (leastExponent - (e : Int)).toNat = 0 := by simp only [leastExponent]; omega
  simp only [Scaled.rounded, least, Nat.max_zero]
  split
  · rename_i short
    simp only [short, pow_zero, roundHalfEven_one, Nat.add_zero]
  · simp [tenTo]

theorem whole?_rounded : (Scaled.mk c e).rounded.whole? = some (kept (c * 10 ^ e)) := by
  rw [rounded_eq, Scaled.whole?, if_pos (Int.natCast_nonneg _), kept_mul_pow, kept, mul_assoc,
    ← pow_add, Nat.add_comm _ e]
  rfl

end Scale

theorem lt_pow_of_whole {n k : Nat} (whole : n / Fixed.scale.toNat < tenTo k) :
    n < 10 ^ (k + decimalPlaces) := by
  rw [pow_add]
  exact (Nat.div_lt_iff_lt_mul (by decide)).mp whole

theorem amountText_eq_ok {raw : Int} {t : Text} : amountText raw = .ok t ↔
    Writable (raw.natAbs / Fixed.scale.toNat : Nat) ∧ t = Text.ofChars (amountChars raw) := by
  unfold amountText
  split
  · rename_i writable
    exact ⟨fun done => ⟨writable, (Except.ok.inj done).symm⟩, fun ⟨_, same⟩ => congrArg _ same.symm⟩
  · rename_i long
    simp only [reduceCtorEq, false_iff, not_and]
    exact fun writable => absurd writable long

/-- Different amounts are written in different ways. -/
theorem amountChars_injective {a b : Int} (same : amountChars a = amountChars b) : a = b := by
  have read := ofText?_amountChars a
  rw [same, ofText?_amountChars b] at read
  have decimals : decimalOf b = decimalOf a := Option.some.inj read
  have magnitudes := (coefficient_decimalOf a).2.symm.trans
    (decimals ▸ (coefficient_decimalOf b).2)
  have signs : decide (b < 0) = decide (a < 0) := congrArg Decimal.negative decimals
  have order : b < 0 ↔ a < 0 := by simpa using signs
  omega

section Rounded

variable (s : Scaled)

/-- Rounding leaves no digit beyond the precision; it may round up to the next power of ten. -/
theorem coefficient_rounded_le : s.rounded.coefficient ≤ 10 ^ precision := by
  rw [Scaled.rounded]
  split
  · rename_i short
    have digits : digitCount s.coefficient ≤ precision := by omega
    exact ((digitCount_le_iff (by decide)).mp digits).le
  · generalize surplus_eq : max (digitCount s.coefficient - precision)
      (leastExponent - s.exponent).toNat = surplus
    have digits : digitCount s.coefficient ≤ precision + surplus := by omega
    have below : s.coefficient < 10 ^ precision * 10 ^ surplus := by
      rw [← pow_add]
      exact (lt_of_digitCount _).trans_le (Nat.pow_le_pow_right (by decide) digits)
    have quotient := (Nat.div_lt_iff_lt_mul (by positivity)).mpr below
    have rounded := roundHalfEven_le s.coefficient (10 ^ surplus)
    change roundHalfEven s.coefficient (10 ^ surplus) ≤ _
    omega

theorem fits_of_whole? {n : Nat} {negative : Bool} (bound : s.coefficient ≤ 10 ^ precision)
    (whole : s.whole? = some n) : FitsPrecision (withSign negative n) := by
  have magnitude : (withSign negative n).natAbs = n := by cases negative <;> simp [withSign]
  rw [FitsPrecision, magnitude]
  unfold Scaled.whole? at whole
  split at whole
  · obtain rfl := Option.some.inj whole
    rcases bound.eq_or_lt with power | below
    · refine ⟨1, precision + s.exponent.toNat, by decide, ?_⟩
      rw [power, one_mul, pow_add]
      rfl
    · exact ⟨s.coefficient, s.exponent.toNat, below, rfl⟩
  · rename_i small
    dsimp only at whole
    split at whole
    · obtain rfl := Option.some.inj whole
      -- At least one digit is cut off.
      have unit : 10 ≤ tenTo (-s.exponent).toNat := Nat.le_self_pow (by omega) 10
      have quotient : s.coefficient / tenTo (-s.exponent).toNat ≤ 10 ^ precision / 10 :=
        Nat.div_le_div bound unit (by decide)
      refine ⟨_, 0, quotient.trans_lt (by decide), ?_⟩
      rw [pow_zero, mul_one]
    · cases whole

end Rounded

/-- An amount that is read from a text fits the precision. -/
theorem fits_of_text {name : String} {t : Text} {n : Int} (read : amount name (.text t) = .ok n) :
    FitsPrecision n := by
  unfold amount at read
  dsimp only at read
  split at read
  · exact absurd read (fail_ne_ok _ _)
  · split at read
    · exact absurd read (fail_ne_ok _ _)
    · split at read
      · rename_i whole
        cases read
        exact fits_of_whole? _ (coefficient_rounded_le _) whole
      · exact absurd read (fail_ne_ok _ _)

/-- Of the amounts that are read, only counts of whole units may miss the precision. -/
theorem fits_or_whole {name : String} {d : Document} {n : Int} (read : amount name d = .ok n) :
    FitsPrecision n ∨ ∃ units, n = units * Fixed.scale := by
  cases d with
  | integer units => exact .inr ⟨units, (Except.ok.inj read).symm⟩
  | text t => exact .inl (fits_of_text read)
  | _ => exact absurd read (fail_ne_ok _ _)

/-- An amount within the range of the protocol that is read fits the precision, however it was
spelled. -/
theorem fits_of_holds {name : String} {d : Document} {n : Int} (read : amount name d = .ok n)
    (held : Width.i128.Holds n) : FitsPrecision n := by
  rcases fits_or_whole read with fits | ⟨units, rfl⟩
  · exact fits
  · -- The range ends long before whole units have more digits than the precision.
    refine ⟨units.natAbs, decimalPlaces, ?_, Int.natAbs_mul _ _⟩
    obtain ⟨low, high⟩ := held
    simp only [Width.lo, Width.hi, Fixed.scale] at low high
    rw [precision]
    omega

end Datum
end Solvency
