import Solvency.Proofs.AmountText
import Solvency.Proofs.DecimalRounding

/-! Reading of amounts from texts. A text that spells no decimal is refused as such. Any other one is
read as the number that it denotes, scaled and rounded to the precision: as an amount where that is
whole, and not where it is not. So what is written reads back as the nearest amount that fits the
precision, and a text is read exactly, or refused for being too fine, unless the rounding reaches an
amount that the text does not denote, or the number is beyond the exponents. -/
namespace Solvency.Datum

section Signs

variable {negative : Bool} {x y : ℚ}

/-- A magnitude with its sign. -/
def signedBy (negative : Bool) (x : ℚ) : ℚ := if negative then -x else x

theorem IsRounded.signedBy (rounded : IsRounded x y) (negative : Bool) :
    IsRounded (signedBy negative x) (signedBy negative y) := by
  cases negative with
  | true => exact rounded.neg
  | false => exact rounded

theorem abs_signedBy (negative : Bool) (nonneg : 0 ≤ x) : |signedBy negative x| = x := by
  cases negative with
  | true => rw [signedBy, if_pos rfl, abs_neg, abs_of_nonneg nonneg]
  | false => rw [signedBy, if_neg Bool.false_ne_true, abs_of_nonneg nonneg]

theorem cast_withSign (negative : Bool) (n : Nat) :
    ((withSign negative n : ℤ) : ℚ) = signedBy negative n := by
  cases negative <;> simp [withSign, signedBy]

theorem signedBy_natAbs (n : ℤ) : signedBy (decide (n < 0)) n.natAbs = n := by
  rw [← cast_withSign, withSign]
  congr 1
  by_cases negative : n < 0
  · rw [if_pos (decide_eq_true negative)]
    omega
  · rw [if_neg (by simpa using negative)]
    omega

theorem signedBy_mul (negative : Bool) (x c : ℚ) :
    signedBy negative x * c = signedBy negative (x * c) := by
  cases negative with
  | true => exact neg_mul x c
  | false => rfl

/-- A signed magnitude is an integer exactly if the magnitude is a natural number. -/
theorem signedBy_eq_intCast_iff (nonneg : 0 ≤ x) {n : ℤ} :
    signedBy negative x = n ↔ ∃ k : ℕ, x = k ∧ withSign negative k = n := by
  constructor
  · intro whole
    have magnitude : x = n.natAbs := by
      rw [← abs_signedBy negative nonneg, whole, Nat.cast_natAbs, Int.cast_abs]
    refine ⟨n.natAbs, magnitude, ?_⟩
    rw [magnitude, ← cast_withSign] at whole
    exact_mod_cast whole
  · rintro ⟨k, rfl, rfl⟩
    rw [cast_withSign]

end Signs

/-- The text denotes the amount. -/
def DenotesAmount (t : Text) (n : ℤ) : Prop := ∃ q, Denotes t q ∧ q * Fixed.scale = n

theorem denotesAmount_iff {t : Text} {q : ℚ} (denotes : Denotes t q) {n : ℤ} :
    DenotesAmount t n ↔ q * Fixed.scale = n := by
  constructor
  · rintro ⟨q', denotes', whole⟩
    rwa [denotes.unique denotes']
  · exact fun whole => ⟨q, denotes, whole⟩

/-- The amounts that are read from the text are those that it denotes, and a text that denotes none is
refused, as no decimal or for being too fine. -/
def ReadsExactly (name : String) (t : Text) : Prop :=
  (∀ n : ℤ, amount name (.text t) = .ok n ↔ DenotesAmount t n) ∧
  ((∀ n : ℤ, ¬ DenotesAmount t n) →
    amount name (.text t) = .error (.field (.notDecimal name t)) ∨
    amount name (.text t) = .error (.field (.tooFine name t)))

/-- No amount with a greater exponent than the greatest one is as large. -/
def exponentBound : ℚ := 10 ^ (greatestExponent + 1)

/-- The text is read as a number: as the amount that it is if it is whole, and refused if it is not, or
if it is too large. -/
structure ReadAs (name : String) (t : Text) (y : ℚ) : Prop where
  ok (n : ℤ) : amount name (.text t) = .ok n ↔ |y| < exponentBound ∧ y = n
  tooFine : amount name (.text t) = .error (.field (.tooFine name t)) ↔
    |y| < exponentBound ∧ ∀ n : ℤ, y ≠ n
  tooLarge : amount name (.text t) = .error (.field .tooLarge) ↔ exponentBound ≤ |y|

section Reading

variable {name : String} {t : Text} {d : Decimal}

/-- The digits of a decimal, with the exponent that moves them twelve places up. -/
def Decimal.shifted (d : Decimal) : Scaled :=
  ⟨d.coefficient, (decimalPlaces : Int) - d.fraction.length⟩

theorem Decimal.value_shifted (d : Decimal) :
    d.value * Fixed.scale = signedBy d.negative d.shifted.value := by
  have scale : (Fixed.scale : ℚ) = 10 ^ decimalPlaces := by norm_num [Fixed.scale, decimalPlaces]
  have shift : d.shifted.value = d.magnitude * Fixed.scale := by
    rw [Scaled.value, shifted, zpow_sub₀ (by norm_num), zpow_natCast, zpow_natCast, scale,
      magnitude_eq]
    ring
  rw [shift, ← signedBy_mul]
  rfl

theorem amount_of_ofText? (name : String) (read : Decimal.ofText? t = some d) : amount name (.text t) =
    if d.shifted.rounded.tooLarge then .error (.field .tooLarge)
    else match d.shifted.rounded.whole? with
      | some n => .ok (withSign d.negative n)
      | none => .error (.field (.tooFine name t)) := by
  simp only [amount, read]
  rfl

theorem amount_of_not_denotes (name : String) (unread : ∀ q, ¬ Denotes t q) :
    amount name (.text t) = .error (.field (.notDecimal name t)) := by
  have none : Decimal.ofText? t = none := by
    cases read : Decimal.ofText? t with
    | none => rfl
    | some d => exact absurd (denotes_iff.mpr ⟨d, read, rfl⟩) (unread d.value)
  simp only [amount, none]
  rfl

/-- A decimal is read as its number, scaled and rounded. -/
theorem readAs_of_ofText? (name : String) (read : Decimal.ofText? t = some d) :
    ReadAs name t (signedBy d.negative d.shifted.rounded.value) := by
  have nonneg := d.shifted.rounded.value_nonneg
  have magnitude : |signedBy d.negative d.shifted.rounded.value| = d.shifted.rounded.value :=
    abs_signedBy d.negative nonneg
  have ended := amount_of_ofText? name read
  by_cases beyond : d.shifted.rounded.tooLarge = true
  · have large : exponentBound ≤ d.shifted.rounded.value :=
      (Scaled.tooLarge_iff _).mp beyond
    rw [if_pos beyond] at ended
    constructor
    · simp [ended, magnitude, large.not_gt]
    · simp [ended, magnitude, large.not_gt]
    · simp [ended, magnitude, large]
  · have small : d.shifted.rounded.value < exponentBound :=
      not_le.mp (mt (Scaled.tooLarge_iff _).mpr beyond)
    rw [if_neg beyond] at ended
    cases found : d.shifted.rounded.whole? with
    | some k =>
      have number : signedBy d.negative d.shifted.rounded.value = (withSign d.negative k : ℤ) := by
        rw [cast_withSign, (Scaled.whole?_eq_some_iff _).mp found]
      rw [found] at ended
      rw [← magnitude, number] at small
      rw [number]
      constructor
      · simp [ended, small]
      · simp [ended]
      · simp [ended, small.not_ge]
    | none =>
      have fractional (n : ℤ) : signedBy d.negative d.shifted.rounded.value ≠ n := by
        intro whole
        obtain ⟨k, natural, _⟩ := (signedBy_eq_intCast_iff nonneg).mp whole
        rw [(Scaled.whole?_eq_some_iff _).mpr natural] at found
        cases found
      rw [found] at ended
      constructor
      · simp [ended, fractional]
      · simp [ended, magnitude, small, fractional]
      · simp [ended, magnitude, small.not_ge]

/-- A text that denotes a number is read as what the number, scaled, is rounded to. -/
theorem readAs_of_denotes (name : String) {q : ℚ} (denotes : Denotes t q) :
    ∃ y, IsRounded (q * Fixed.scale) y ∧ ReadAs name t y := by
  obtain ⟨d, read, rfl⟩ := denotes_iff.mp denotes
  rw [d.value_shifted]
  exact ⟨_, d.shifted.isRounded_rounded.signedBy d.negative, readAs_of_ofText? name read⟩

/-- Among the integers, rounding leaves a number with the digits that fit the precision. -/
theorem isRounded_nearest (n : ℤ) : IsRounded n (nearest n) := by
  have digits : Scaled.value ⟨n.natAbs, (0 : Nat)⟩ = n.natAbs := by
    simp [Scaled.value]
  have kept_digits := (Scaled.whole?_eq_some_iff _).mp (whole?_rounded n.natAbs 0)
  have rounded := (Scaled.mk n.natAbs (0 : Nat)).isRounded_rounded.signedBy (decide (n < 0))
  rw [pow_zero, mul_one] at kept_digits
  rw [digits, signedBy_natAbs, kept_digits, ← cast_withSign] at rounded
  exact rounded

/-- An amount that a text denotes is read as the number nearest to it that fits the precision. -/
theorem amount_of_denotesAmount (name : String) {n : ℤ} (denoted : DenotesAmount t n)
    (small : |(nearest n : ℚ)| < exponentBound) : amount name (.text t) = .ok (nearest n) := by
  obtain ⟨q, denotes, whole⟩ := denoted
  obtain ⟨y, rounded, reading⟩ := readAs_of_denotes name denotes
  rw [whole] at rounded
  obtain rfl := rounded.unique (isRounded_nearest n)
  exact (reading.ok _).mpr ⟨small, rfl⟩

section Written

variable {raw : ℤ}

/-- The decimal that an amount is written as stands for it. -/
theorem value_decimalOf_mul (raw : ℤ) : (decimalOf raw).value * Fixed.scale = raw := by
  obtain ⟨places, coefficient⟩ := coefficient_decimalOf raw
  have exponent : (decimalPlaces : ℤ) - (decimalOf raw).fraction.length =
      0 + (decimalPlaces - (decimalOf raw).fraction.length : Nat) := by omega
  rw [Decimal.value_shifted, Decimal.shifted, exponent, Scaled.value_add, coefficient, zpow_zero,
    mul_one]
  exact signedBy_natAbs raw

theorem denotesAmount_amountText (written : amountText raw = .ok t) : DenotesAmount t raw := by
  obtain ⟨_, rfl⟩ := amountText_eq_ok.mp written
  exact ⟨_, denotes_iff.mpr ⟨_, ofText?_amountChars raw, rfl⟩, value_decimalOf_mul raw⟩

/-- Amounts that are written are far below the greatest exponent. -/
theorem nearest_lt_of_written (written : amountText raw = .ok t) :
    |(nearest raw : ℚ)| < exponentBound := by
  have below : raw.natAbs < 10 ^ (digitLimit + decimalPlaces) :=
    lt_pow_of_whole (amountText_eq_ok.mp written).1
  have digits := (digitCount_le_iff (by decide)).mpr below
  rw [nearest, cast_withSign, abs_signedBy _ (Nat.cast_nonneg _)]
  calc (kept raw.natAbs : ℚ) ≤ (10 ^ digitCount raw.natAbs : Nat) := by
        exact_mod_cast kept_le raw.natAbs
    _ = 10 ^ (digitCount raw.natAbs : ℤ) := by
        rw [zpow_natCast]
        push_cast
        rfl
    _ < exponentBound := by
        refine zpow_lt_zpow_right₀ (by norm_num) ?_
        simp only [digitLimit, decimalPlaces] at digits
        simp only [greatestExponent]
        omega

/-- A written amount reads back as the number nearest to it that fits the precision. -/
theorem amount_amountText (written : amountText raw = .ok t) (name : String) :
    amount name (.text t) = .ok (nearest raw) :=
  amount_of_denotesAmount name (denotesAmount_amountText written) (nearest_lt_of_written written)

end Written

/-- What is read exactly is not refused for its size. -/
theorem ReadsExactly.not_tooLarge (reading : ReadsExactly name t) :
    amount name (.text t) ≠ .error (.field .tooLarge) := by
  intro beyond
  by_cases some_amount : ∃ n, DenotesAmount t n
  · obtain ⟨n, denoted⟩ := some_amount
    rw [(reading.1 n).mpr denoted] at beyond
    cases beyond
  · rcases reading.2 (not_exists.mp some_amount) with refused | refused
    all_goals
      rw [refused] at beyond
      cases beyond

/-- Reading is exact unless rounding makes an amount of a number that is none, or of another number, or
the number is too large. -/
theorem ReadAs.exactly_iff {q y : ℚ} (denotes : Denotes t q)
    (rounded : IsRounded (q * Fixed.scale) y) (reading : ReadAs name t y) :
    ReadsExactly name t ↔
      |y| < exponentBound ∧ ((∃ n : ℤ, y = n) → y = q * Fixed.scale) := by
  have amounts (n : ℤ) := denotesAmount_iff denotes (n := n)
  constructor
  · rintro ⟨reads, refuses⟩
    have small : |y| < exponentBound :=
      not_le.mp (mt reading.tooLarge.mpr (ReadsExactly.not_tooLarge ⟨reads, refuses⟩))
    refine ⟨small, ?_⟩
    rintro ⟨n, whole⟩
    have denoted := (reads n).mp ((reading.ok n).mpr ⟨small, whole⟩)
    rw [whole, (amounts n).mp denoted]
  · rintro ⟨small, kept⟩
    have same (n : ℤ) : y = n ↔ q * Fixed.scale = n := by
      constructor
      · intro whole
        rw [← kept ⟨n, whole⟩, whole]
      · intro whole
        rw [whole] at rounded kept
        exact kept rounded.whole
    refine ⟨fun n => ?_, fun none => .inr (reading.tooFine.mpr ⟨small, fun n whole => ?_⟩)⟩
    · rw [reading.ok, amounts, same]
      exact and_iff_right small
    · exact none n ((amounts n).mpr ((same n).mp whole))

/-- Texts of no more digits than the precision has are read exactly. -/
theorem readsExactly_of_short (name : String) (formed : d.WellFormed) (spelled : t.trim = Text.ofChars d.chars)
    (short : d.whole.length + d.fraction.length ≤ precision) : ReadsExactly name t := by
  have read := Decimal.ofText?_eq_some_iff.mpr ⟨formed, spelled⟩
  have digits : digitCount d.coefficient ≤ precision := by
    rw [digitCount_le_iff (by decide)]
    exact (Decimal.coefficient_lt formed).trans_le (Nat.pow_le_pow_right (by decide) short)
  rw [precision] at short
  have kept : d.shifted.rounded = d.shifted := by
    apply Scaled.rounded_of_short
    · exact digits
    · simp only [Decimal.shifted, leastExponent, decimalPlaces]
      omega
  have reading := readAs_of_ofText? name read
  have rounded := d.shifted.isRounded_rounded.signedBy d.negative
  rw [kept] at reading rounded
  have denotes : Denotes t d.value := ⟨d, formed, spelled, rfl⟩
  rw [← d.value_shifted] at reading rounded
  refine (reading.exactly_iff denotes rounded).mpr ⟨?_, fun _ => rfl⟩
  rw [d.value_shifted, abs_signedBy _ d.shifted.value_nonneg]
  apply Scaled.value_lt
  rw [precision] at digits
  simp only [Decimal.shifted, greatestExponent, decimalPlaces]
  omega

end Reading

/-- A text that denotes no number is refused as no decimal. One that does is read as that number, scaled
and rounded: the amounts that it is read as are exact if and only if the rounding makes no amount of
anything else, and the number is within the exponents. Texts of no more digits than the precision has
are always read exactly. -/
theorem readsExactly_iff (name : String) (t : Text) :
    ((∀ q, ¬ Denotes t q) → amount name (.text t) = .error (.field (.notDecimal name t))) ∧
    (∀ q, Denotes t q → ∃ y, IsRounded (q * Fixed.scale) y ∧ ReadAs name t y) ∧
    (ReadsExactly name t ↔ ∀ q y, Denotes t q → IsRounded (q * Fixed.scale) y →
      |y| < exponentBound ∧ ((∃ n : ℤ, y = n) → y = q * Fixed.scale)) ∧
    ∀ d : Decimal, d.WellFormed → t.trim = Text.ofChars d.chars →
      d.whole.length + d.fraction.length ≤ precision → ReadsExactly name t := by
  refine ⟨amount_of_not_denotes name, fun q => readAs_of_denotes name, ?_,
    fun d => readsExactly_of_short name⟩
  by_cases denoted : ∃ q, Denotes t q
  · obtain ⟨q, denotes⟩ := denoted
    obtain ⟨y, rounded, reading⟩ := readAs_of_denotes name denotes
    rw [reading.exactly_iff denotes rounded]
    constructor
    · intro exact_reading q' y' denotes' rounded'
      rw [denotes'.unique denotes] at rounded' ⊢
      rwa [rounded'.unique rounded]
    · exact fun all => all q y denotes rounded
  · have none (q) : ¬ Denotes t q := fun denotes => denoted ⟨q, denotes⟩
    have refused := amount_of_not_denotes name none
    refine iff_of_true ⟨fun n => ?_, fun _ => .inl refused⟩ fun q _ denotes => absurd denotes (none q)
    rw [refused]
    exact iff_of_false nofun fun ⟨q, denotes, _⟩ => none q denotes

theorem readsExactly_iff_sample : Denotes "-0.25" (-1 / 4) ∧ ReadsExactly "price" "-0.25" ∧
    amount "price" (.text "-0.25") = .ok (-250000000000) := by
  have read : Decimal.ofText? "-0.25" = some ⟨true, ['0'], ['2', '5']⟩ := rfl
  obtain ⟨formed, spelled⟩ := Decimal.ofText?_eq_some_iff.mp read
  have coefficient : Decimal.coefficient ⟨true, ['0'], ['2', '5']⟩ = 25 := rfl
  have denotes : Denotes "-0.25" (-1 / 4) :=
    ⟨_, formed, spelled, by norm_num [Decimal.value, Decimal.magnitude_eq, coefficient]⟩
  have reads := (readsExactly_iff "price" "-0.25").2.2.2 _ formed spelled (by decide)
  refine ⟨denotes, reads, (reads.1 _).mpr ((denotesAmount_iff denotes).mpr ?_)⟩
  norm_num [Fixed.scale]

/-- An amount of 29 digits is read as another one, and a number just below one whole as one whole. -/
theorem not_readsExactly :
    DenotesAmount "12345678901234567.890123456789" 12345678901234567890123456789 ∧
    amount "price" (.text "12345678901234567.890123456789") =
      .ok 12345678901234567890123456790 ∧
    ¬ ReadsExactly "price" "12345678901234567.890123456789" ∧
    amount "price" (.text "0.99999999999999999999999999999999999999999") = .ok 1000000000000 ∧
    ¬ ReadsExactly "price" "0.99999999999999999999999999999999999999999" := by
  have long : Denotes "12345678901234567.890123456789"
      (12345678901234567890123456789 / 1000000000000) := by
    refine denotes_iff.mpr ⟨⟨false, "12345678901234567".toList, "890123456789".toList⟩, rfl, ?_⟩
    have coefficient : Decimal.coefficient
        ⟨false, "12345678901234567".toList, "890123456789".toList⟩ =
          12345678901234567890123456789 := rfl
    have places : "890123456789".toList.length = 12 := rfl
    norm_num [Decimal.value, Decimal.magnitude_eq, coefficient, places]
  have fine : Denotes "0.99999999999999999999999999999999999999999" (1 - 1 / 10 ^ 41) := by
    refine denotes_iff.mpr ⟨⟨false, ['0'], List.replicate 41 '9'⟩, rfl, ?_⟩
    have coefficient : Decimal.coefficient ⟨false, ['0'], List.replicate 41 '9'⟩ =
        10 ^ 41 - 1 := rfl
    norm_num [Decimal.value, Decimal.magnitude_eq, coefficient]
  have rounded : amount "price" (.text "12345678901234567.890123456789") =
      .ok 12345678901234567890123456790 := rfl
  have rounded' : amount "price" (.text "0.99999999999999999999999999999999999999999") =
      .ok 1000000000000 := rfl
  refine ⟨(denotesAmount_iff long).mpr (by norm_num [Fixed.scale]), rounded, fun reads => ?_,
    rounded', fun reads => ?_⟩
  · have denoted := (denotesAmount_iff long).mp ((reads.1 _).mp rounded)
    norm_num [Fixed.scale] at denoted
  · have denoted := (denotesAmount_iff fine).mp ((reads.1 _).mp rounded')
    norm_num [Fixed.scale] at denoted

end Solvency.Datum
