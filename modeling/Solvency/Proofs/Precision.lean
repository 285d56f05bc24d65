import Mathlib.Algebra.Order.Ring.Nat
import Mathlib.Tactic.Positivity
import Mathlib.Tactic.Ring
import Solvency.Datum.Amount

/-! Numbers of limited precision. Rounding to the precision moves with the point: it does not matter
where in a number the point stands, nor how many zeros its digits end in. -/
namespace Solvency.Datum

/-- The number has no more significant digits than the precision; zeros at its end are none. -/
def FitsPrecision (n : Int) : Prop := ∃ m k : Nat, m < 10 ^ precision ∧ n.natAbs = m * 10 ^ k

/-- A number rounded to the precision. -/
def kept (n : Nat) : Nat :=
  roundHalfEven n (10 ^ (digitCount n - precision)) * 10 ^ (digitCount n - precision)

def nearest (n : Int) : Int := withSign (decide (n < 0)) (kept n.natAbs)

section Rounding

variable {n d m k : Nat}

theorem roundHalfEven_mul_right (n d : Nat) (positive : 0 < k) :
    roundHalfEven (n * k) (d * k) = roundHalfEven n d := by
  have quotient : n * k / (d * k) = n / d := Nat.mul_div_mul_right n d positive
  have remainder : n * k % (d * k) = n % d * k := Nat.mul_mod_mul_right k n d
  have twice : 2 * (n % d * k) = 2 * (n % d) * k := by ring
  simp only [roundHalfEven, quotient, remainder, twice, Nat.mul_lt_mul_right positive]

theorem roundHalfEven_multiple (m : Nat) (positive : 0 < d) : roundHalfEven (m * d) d = m := by
  simp [roundHalfEven, Nat.mul_div_cancel m positive, positive]

theorem roundHalfEven_one (n : Nat) : roundHalfEven n 1 = n := by
  simpa using roundHalfEven_multiple (d := 1) n (by decide)

theorem roundHalfEven_le (n d : Nat) : roundHalfEven n d ≤ n / d + 1 := by
  simp only [roundHalfEven]
  split_ifs <;> omega

end Rounding

section Digits

variable {n k : Nat}

theorem digitCount_le_iff (positive : 0 < k) : digitCount n ≤ k ↔ n < 10 ^ k :=
  Nat.length_toDigits_le_iff (by decide) positive

theorem digitCount_pos (n : Nat) : 0 < digitCount n := Nat.length_toDigits_pos

theorem lt_of_digitCount (n : Nat) : n < 10 ^ digitCount n :=
  (digitCount_le_iff (digitCount_pos n)).mp le_rfl

theorem digitCount_mul_ten (positive : 0 < n) : digitCount (n * 10) = digitCount n + 1 := by
  have digits : Nat.toDigits 10 n ++ Nat.toDigits 10 0 = Nat.toDigits 10 (10 * n + 0) :=
    Nat.toDigits_append_toDigits (by decide) positive (by decide)
  rw [digitCount, mul_comm, ← Nat.add_zero (10 * n), ← digits, List.length_append]
  rfl

theorem digitCount_mul_pow (positive : 0 < n) (k : Nat) :
    digitCount (n * 10 ^ k) = digitCount n + k := by
  induction k with
  | zero => simp
  | succ k ih =>
    rw [pow_succ, ← mul_assoc, digitCount_mul_ten (by positivity), ih, add_assoc]

end Digits

section Kept

variable {n k : Nat}

theorem kept_of_short (short : digitCount n ≤ precision) : kept n = n := by
  have none : digitCount n - precision = 0 := by omega
  rw [kept, none, pow_zero, mul_one, roundHalfEven_one]

/-- Zeros at the end are kept as they are, whether or not they are rounded away. -/
theorem kept_mul_pow (n k : Nat) : kept (n * 10 ^ k) = kept n * 10 ^ k := by
  rcases Nat.eq_zero_or_pos n with rfl | positive
  · simp [kept, roundHalfEven]
  have digits := digitCount_mul_pow positive k
  rcases Nat.lt_or_ge precision (digitCount n) with long | short
  · -- The same digits are cut off, together with the zeros behind them.
    have surplus : digitCount (n * 10 ^ k) - precision = digitCount n - precision + k := by omega
    rw [kept, surplus, pow_add, roundHalfEven_mul_right _ _ (by positivity), kept, mul_assoc]
  · -- Nothing but zeros can be cut off.
    rw [kept_of_short short]
    rcases Nat.lt_or_ge precision (digitCount (n * 10 ^ k)) with longer | still_short
    · obtain ⟨rest, split⟩ : ∃ rest, k = rest + (digitCount (n * 10 ^ k) - precision) :=
        ⟨k - (digitCount (n * 10 ^ k) - precision), by omega⟩
      have multiple : n * 10 ^ k =
          n * 10 ^ rest * 10 ^ (digitCount (n * 10 ^ k) - precision) := by
        rw [mul_assoc, ← pow_add, ← split]
      rw [kept]
      generalize digitCount (n * 10 ^ k) - precision = surplus at multiple
      rw [multiple, roundHalfEven_multiple _ (by positivity)]
    · exact kept_of_short still_short

/-- What is left of the digits may round up to a power of ten, but not beyond it. -/
theorem leading_le (n : Nat) : roundHalfEven n (10 ^ (digitCount n - precision)) ≤
    10 ^ (digitCount n - (digitCount n - precision)) := by
  have below : n < 10 ^ (digitCount n - (digitCount n - precision)) *
      10 ^ (digitCount n - precision) := by
    rw [← pow_add, Nat.sub_add_cancel (Nat.sub_le _ _)]
    exact lt_of_digitCount n
  have quotient := (Nat.div_lt_iff_lt_mul (by positivity)).mpr below
  have rounded := roundHalfEven_le n (10 ^ (digitCount n - precision))
  omega

theorem kept_le (n : Nat) : kept n ≤ 10 ^ digitCount n :=
  calc kept n ≤ 10 ^ (digitCount n - (digitCount n - precision)) *
        10 ^ (digitCount n - precision) := Nat.mul_le_mul_right _ (leading_le n)
    _ = 10 ^ digitCount n := by rw [← pow_add, Nat.sub_add_cancel (Nat.sub_le _ _)]

/-- Rounding leaves a number as it is exactly if its significant digits fit the precision. -/
theorem kept_eq_self_iff (n : Nat) :
    kept n = n ↔ ∃ m k : Nat, m < 10 ^ precision ∧ n = m * 10 ^ k := by
  constructor
  · intro same
    rcases (leading_le n).eq_or_lt with power | lower
    · rw [kept, power, ← pow_add] at same
      exact ⟨1, _, by decide, by rw [one_mul]; exact same.symm⟩
    · have short : digitCount n - (digitCount n - precision) ≤ precision := by omega
      exact ⟨_, _, lower.trans_le (Nat.pow_le_pow_right (by decide) short), same.symm⟩
  · rintro ⟨m, k, short, rfl⟩
    rw [kept_mul_pow, kept_of_short ((digitCount_le_iff (by decide)).mpr short)]

end Kept

theorem nearest_eq_self_iff (n : Int) : nearest n = n ↔ FitsPrecision n := by
  rw [FitsPrecision, ← kept_eq_self_iff, nearest, withSign]
  split
  · rename_i negative
    have : n < 0 := by simpa using negative
    omega
  · rename_i nonneg
    have : ¬ n < 0 := by simpa using nonneg
    omega

instance (n : Int) : Decidable (FitsPrecision n) := decidable_of_iff _ (nearest_eq_self_iff n)

end Solvency.Datum
