import Mathlib.Algebra.Order.Floor.Ring
import Mathlib.Data.Int.Log
import Mathlib.Data.Rat.Floor
import Mathlib.Tactic.FieldSimp
import Mathlib.Tactic.Linarith
import Solvency.Proofs.Precision

/-! Rounding to a precision, told of rational numbers. A number keeps as many digits as the precision
has, counted from its first one, but none behind the least exponent; what it is rounded to is the
nearest number with such digits, and the even one of two that are equally near. -/
namespace Solvency.Datum

/-- The exponent of the last digit that is kept of a number. -/
def lastExponent (x : ℚ) : ℤ := max (Int.log 10 |x| + 1 - precision) leastExponent

/-- What a unit of the last digit that is kept is worth. -/
def lastPlace (x : ℚ) : ℚ := 10 ^ lastExponent x

/-- The number is as near to another one as a multiple of its last place can be; of two such multiples
it is the even one. -/
def IsRounded (x y : ℚ) : Prop :=
  ∃ m : ℤ, y = m * lastPlace x ∧ 2 * |x - y| ≤ lastPlace x ∧ (2 * |x - y| = lastPlace x → Even m)

section Rational

variable {x y y' : ℚ}

theorem lastPlace_pos (x : ℚ) : 0 < lastPlace x := zpow_pos (by norm_num) _

theorem lastPlace_neg (x : ℚ) : lastPlace (-x) = lastPlace x := by
  simp only [lastPlace, lastExponent, abs_neg]

theorem IsRounded.neg (rounded : IsRounded x y) : IsRounded (-x) (-y) := by
  obtain ⟨m, rfl, near, tie⟩ := rounded
  have distance : |-x - -(m * lastPlace x)| = |x - m * lastPlace x| := by
    rw [← abs_neg]
    congr 1
    ring
  refine ⟨-m, ?_, ?_, ?_⟩
  · rw [lastPlace_neg]
    push_cast
    ring
  · rwa [lastPlace_neg, distance]
  · rw [lastPlace_neg, distance]
    exact fun half => (tie half).neg

/-- A multiple of its own last place is not changed. -/
theorem isRounded_self {m : ℤ} (multiple : x = m * lastPlace x) : IsRounded x x := by
  have positive := lastPlace_pos x
  refine ⟨m, multiple, ?_, ?_⟩
  · rw [sub_self, abs_zero, mul_zero]
    exact positive.le
  · rw [sub_self, abs_zero, mul_zero]
    exact fun half => absurd half positive.ne

/-- Of two different multiples of the last place only one can be what a number is rounded to. -/
theorem not_both_rounded {a b : ℤ} {unit : ℚ} (before : a < b)
    (near : 2 * |x - a * unit| ≤ unit) (tie : 2 * |x - a * unit| = unit → Even a)
    (near' : 2 * |x - b * unit| ≤ unit) (tie' : 2 * |x - b * unit| = unit → Even b)
    (positive : 0 < unit) : False := by
  have above : x - a * unit ≤ |x - a * unit| := le_abs_self _
  have below : -(x - b * unit) ≤ |x - b * unit| := neg_le_abs _
  have apart : (b - a : ℚ) * unit ≤ 1 * unit := by linarith
  have next : b = a + 1 := by
    have gap : (b - a : ℚ) ≤ 1 := le_of_mul_le_mul_right apart positive
    have gap' : b - a ≤ 1 := by exact_mod_cast gap
    omega
  -- Both are half a unit away, so both are even, though they are neighbours.
  have length : (b - a : ℚ) * unit = unit := by
    rw [next]
    push_cast
    ring
  have even : Even a := tie (by linarith)
  have even' : Even b := tie' (by linarith)
  rw [next, Int.even_add_one] at even'
  exact even' even

/-- There is one number that another one is rounded to. -/
theorem IsRounded.unique (first : IsRounded x y) (second : IsRounded x y') : y = y' := by
  obtain ⟨m, rfl, near, tie⟩ := first
  obtain ⟨m', rfl, near', tie'⟩ := second
  have positive := lastPlace_pos x
  rcases lt_trichotomy m m' with before | rfl | after
  · exact (not_both_rounded before near tie near' tie' positive).elim
  · rfl
  · exact (not_both_rounded after near' tie' near tie positive).elim

/-- An integer is rounded to an integer. -/
theorem IsRounded.whole {n : ℤ} (rounded : IsRounded (n : ℚ) y) : ∃ m : ℤ, y = m := by
  rcases le_or_gt 0 (lastExponent n) with units | decimals
  · -- The last place is a whole number itself.
    obtain ⟨k, exponent⟩ := Int.eq_ofNat_of_zero_le units
    obtain ⟨m, rfl, _⟩ := rounded
    refine ⟨m * 10 ^ k, ?_⟩
    rw [lastPlace, exponent, zpow_natCast]
    push_cast
    rfl
  · -- The integer is a multiple of its last place.
    obtain ⟨k, exponent⟩ := Int.exists_eq_neg_ofNat decimals.le
    have multiple : (n : ℚ) = (n * 10 ^ k : ℤ) * lastPlace n := by
      rw [lastPlace, exponent, zpow_neg, zpow_natCast]
      push_cast
      field_simp
    exact ⟨n, rounded.unique (isRounded_self multiple)⟩

end Rational

section Coefficients

variable {n d : Nat}

/-- A quotient is rounded to the nearest integer, and to the even one from the middle. -/
theorem roundHalfEven_nearest (n : Nat) (positive : 0 < d) :
    2 * |(n : ℤ) - roundHalfEven n d * d| ≤ d ∧
    (2 * |(n : ℤ) - roundHalfEven n d * d| = d → Even (roundHalfEven n d : ℤ)) := by
  have bound : n % d < d := Nat.mod_lt n positive
  have split : (d : ℤ) * (n / d : Nat) + (n % d : Nat) = n := by exact_mod_cast Nat.div_add_mod n d
  have down : |(n : ℤ) - (n / d : Nat) * d| = (n % d : Nat) := by
    rw [← split, mul_comm, add_sub_cancel_left]
    exact Nat.abs_cast _
  have up : |(n : ℤ) - (n / d + 1 : Nat) * d| = d - (n % d : Nat) := by
    have negated : (n : ℤ) - (n / d + 1 : Nat) * d = -(d - (n % d : Nat)) := by
      push_cast at split ⊢
      linarith
    rw [negated, abs_neg, abs_of_nonneg (by omega)]
  simp only [roundHalfEven]
  split_ifs with low high even
  · rw [down]
    omega
  · rw [up]
    omega
  · rw [down]
    exact ⟨by omega, fun _ => by exact_mod_cast Nat.even_iff.mpr even⟩
  · rw [up]
    exact ⟨by omega, fun _ => by exact_mod_cast Nat.even_iff.mpr (by omega)⟩

theorem pow_le_of_digitCount (positive : 0 < n) : 10 ^ (digitCount n - 1) ≤ n := by
  by_contra below
  have digits := digitCount_pos n
  rcases Nat.eq_zero_or_pos (digitCount n - 1) with none | some_digit
  · rw [none] at below
    omega
  · have fewer := (digitCount_le_iff some_digit).mpr (not_le.mp below)
    omega

theorem div_eq_natCast_iff {m : Nat} (positive : 0 < d) :
    (n / d : ℚ) = m ↔ n % d = 0 ∧ n / d = m := by
  rw [div_eq_iff (by exact_mod_cast positive.ne'), ← Nat.cast_mul, Nat.cast_inj]
  constructor
  · rintro rfl
    exact ⟨Nat.mul_mod_left m d, Nat.mul_div_cancel m positive⟩
  · rintro ⟨none_left, rfl⟩
    exact (Nat.div_mul_cancel (Nat.dvd_of_mod_eq_zero none_left)).symm

end Coefficients

namespace Scaled

/-- The number that the two parts stand for. -/
def value (s : Scaled) : ℚ := s.coefficient * 10 ^ s.exponent

variable (s : Scaled) {n : Nat}

theorem value_nonneg : 0 ≤ s.value := mul_nonneg (Nat.cast_nonneg _) (zpow_nonneg (by norm_num) _)

theorem value_lt {k : ℤ} (enough : digitCount s.coefficient + s.exponent ≤ k) :
    s.value < 10 ^ k := by
  have most : (s.coefficient : ℚ) < 10 ^ digitCount s.coefficient := by
    exact_mod_cast lt_of_digitCount s.coefficient
  calc s.value < 10 ^ digitCount s.coefficient * 10 ^ s.exponent :=
        mul_lt_mul_of_pos_right most (zpow_pos (by norm_num) _)
    _ = 10 ^ (digitCount s.coefficient + s.exponent : ℤ) := by
        rw [zpow_add₀ (by norm_num), zpow_natCast]
    _ ≤ 10 ^ k := zpow_le_zpow_right₀ (by norm_num) enough

/-- How large a number is can be told from its digits and its exponent. -/
theorem value_lt_iff (positive : 0 < s.coefficient) (k : ℤ) :
    s.value < 10 ^ k ↔ digitCount s.coefficient + s.exponent ≤ k := by
  refine ⟨fun below => ?_, s.value_lt⟩
  have digits := digitCount_pos s.coefficient
  have least : (10 : ℚ) ^ (digitCount s.coefficient - 1) ≤ s.coefficient := by
    exact_mod_cast pow_le_of_digitCount positive
  have leading : (10 : ℚ) ^ ((digitCount s.coefficient - 1 : Nat) + s.exponent : ℤ) ≤ s.value := by
    rw [zpow_add₀ (by norm_num), zpow_natCast]
    exact mul_le_mul_of_nonneg_right least (zpow_nonneg (by norm_num) _)
  have exponents := (zpow_lt_zpow_iff_right₀ (by norm_num)).mp (leading.trans_lt below)
  omega

theorem value_pos (positive : 0 < s.coefficient) : 0 < s.value :=
  mul_pos (by exact_mod_cast positive) (zpow_pos (by norm_num) _)

theorem lastExponent_value (positive : 0 < s.coefficient) : lastExponent s.value =
    max (digitCount s.coefficient - precision + s.exponent : ℤ) leastExponent := by
  have above := value_pos s positive
  have log (k : ℤ) : Int.log 10 s.value < k ↔ digitCount s.coefficient + s.exponent ≤ k := by
    rw [← Int.lt_zpow_iff_log_lt (by decide) above]
    exact_mod_cast value_lt_iff s positive k
  have upper := (log (Int.log 10 s.value + 1)).mp (lt_add_one _)
  have lower := (log (digitCount s.coefficient + s.exponent)).mpr le_rfl
  rw [lastExponent, abs_of_pos above]
  congr 1
  omega

theorem value_zero {s : Scaled} (zero : s.coefficient = 0) : s.value = 0 := by
  rw [value, zero, Nat.cast_zero, zero_mul]

theorem rounded_zero {s : Scaled} (zero : s.coefficient = 0) : s.rounded.value = 0 := by
  simp only [rounded]
  split
  · exact value_zero zero
  · exact value_zero (by simp [zero, roundHalfEven])

/-- Zeros may be moved from the exponent to the digits. -/
theorem value_add (c k : Nat) (e : ℤ) : value ⟨c, e + k⟩ = (c * 10 ^ k : Nat) * 10 ^ e := by
  rw [value, zpow_add₀ (by norm_num), zpow_natCast]
  push_cast
  ring

/-- The rounding of the digits is the rounding of the number. -/
theorem isRounded_rounded : IsRounded s.value s.rounded.value := by
  rcases Nat.eq_zero_or_pos s.coefficient with zero | positive
  · rw [rounded_zero zero, value_zero zero]
    exact isRounded_self (m := 0) (by simp)
  have last := lastExponent_value s positive
  simp only [rounded]
  split
  · -- No digit stands behind the last place.
    have ends : lastExponent s.value ≤ s.exponent := by omega
    obtain ⟨k, split⟩ := Int.le.dest ends
    refine isRounded_self (m := (s.coefficient * 10 ^ k : Nat)) ?_
    have shifted := value_add s.coefficient k (lastExponent s.value)
    rw [split] at shifted
    exact_mod_cast shifted
  · rename_i cut_digits
    generalize surplus_eq : max (digitCount s.coefficient - precision)
      (leastExponent - s.exponent).toNat = surplus at cut_digits ⊢
    have power : (0 : ℚ) < 10 ^ s.exponent := zpow_pos (by norm_num) _
    have place : lastPlace s.value = (10 ^ surplus : Nat) * 10 ^ s.exponent := by
      have exponent : lastExponent s.value = s.exponent + surplus := by omega
      rw [lastPlace, exponent, ← one_mul ((10 : ℚ) ^ _), ← one_mul (10 ^ surplus)]
      exact_mod_cast value_add 1 surplus s.exponent
    obtain ⟨near, tie⟩ := roundHalfEven_nearest s.coefficient (d := 10 ^ surplus) (by positivity)
    change IsRounded _ (value ⟨roundHalfEven s.coefficient (10 ^ surplus), s.exponent + surplus⟩)
    generalize roundHalfEven s.coefficient (10 ^ surplus) = m at near tie ⊢
    have distance : 2 * |s.value - value ⟨m, s.exponent + surplus⟩| =
        (2 * |(s.coefficient : ℤ) - m * (10 ^ surplus : Nat)| : ℤ) * 10 ^ s.exponent := by
      rw [value_add, value, ← sub_mul, abs_mul, abs_of_pos power]
      push_cast
      ring
    refine ⟨m, ?_, ?_, ?_⟩
    · rw [place, value_add]
      push_cast
      ring
    · rw [distance, place]
      exact mul_le_mul_of_nonneg_right (by exact_mod_cast near) power.le
    · rw [distance, place]
      intro half
      exact tie (by exact_mod_cast mul_right_cancel₀ power.ne' half)

theorem whole?_eq_some_iff : s.whole? = some n ↔ s.value = n := by
  unfold whole?
  split
  · rename_i nonneg
    obtain ⟨k, exponent⟩ := Int.eq_ofNat_of_zero_le nonneg
    have value_eq : s.value = (s.coefficient * 10 ^ k : Nat) := by
      rw [value, exponent, zpow_natCast]
      push_cast
      rfl
    rw [value_eq, exponent, Option.some_inj, Nat.cast_inj]
    rfl
  · rename_i negative
    obtain ⟨k, exponent⟩ := Int.exists_eq_neg_ofNat (not_le.mp negative).le
    have value_eq : s.value = (s.coefficient : ℚ) / (10 ^ k : Nat) := by
      rw [value, exponent, zpow_neg, zpow_natCast, div_eq_mul_inv]
      push_cast
      rfl
    have places : (-s.exponent).toNat = k := by omega
    have unit : tenTo k = 10 ^ k := rfl
    rw [value_eq, div_eq_natCast_iff (by positivity), places]
    simp only [unit, Option.ite_none_right_eq_some, Option.some_inj]

theorem tooLarge_iff : s.tooLarge = true ↔ (10 : ℚ) ^ (greatestExponent + 1) ≤ s.value := by
  rcases Nat.eq_zero_or_pos s.coefficient with zero | positive
  · have below : ¬ (10 : ℚ) ^ (greatestExponent + 1) ≤ s.value := by
      rw [value_zero zero]
      exact not_le.mpr (zpow_pos (by norm_num) _)
    simp [tooLarge, zero, below]
  · rw [← not_lt, value_lt_iff s positive, tooLarge]
    simp only [Bool.and_eq_true, bne_iff_ne, decide_eq_true_eq]
    omega

/-- A number of no more digits than the precision has is kept as it is. -/
theorem rounded_of_short (digits : digitCount s.coefficient ≤ precision)
    (places : leastExponent ≤ s.exponent) : s.rounded = s := by
  have none : max (digitCount s.coefficient - precision) (leastExponent - s.exponent).toNat = 0 := by
    omega
  rw [rounded, none]
  rfl

end Scaled
end Solvency.Datum
