import Mathlib.Data.Rat.Floor
import Mathlib.Algebra.Order.Field.Basic
import Solvency.Arithmetic.Fixed

/-! Rounding. Integer quotients are floors and ceilings of rational numbers, and several roundings
in a row come to one. -/
namespace Solvency

theorem ediv_eq_floor (a : Int) {b : Int} (nonneg : 0 ≤ b) : a / b = ⌊(a / b : ℚ)⌋ := by
  obtain ⟨n, rfl⟩ := Int.eq_ofNat_of_zero_le nonneg
  exact_mod_cast (Rat.floor_intCast_div_natCast a n).symm

theorem neg_ediv_neg_eq_ceil (a : Int) {b : Int} (nonneg : 0 ≤ b) :
    -(-a / b) = ⌈(a / b : ℚ)⌉ := by
  rw [ediv_eq_floor (-a) nonneg, Int.cast_neg, neg_div, Int.floor_neg, neg_neg]

theorem fdiv_eq_floor (a b : Int) : a.fdiv b = ⌊(a / b : ℚ)⌋ := by
  rcases le_total 0 b with nonneg | nonpos
  · rw [Int.fdiv_eq_ediv_of_nonneg a nonneg, ediv_eq_floor a nonneg]
  · have reversed : 0 ≤ -b := by omega
    rw [← Int.neg_fdiv_neg, Int.fdiv_eq_ediv_of_nonneg (-a) reversed, ediv_eq_floor (-a) reversed]
    push_cast
    rw [neg_div_neg_eq]

theorem neg_fdiv_neg_eq_ceil (a b : Int) : -((-a).fdiv b) = ⌈(a / b : ℚ)⌉ := by
  rw [fdiv_eq_floor, Int.cast_neg, neg_div, Int.floor_neg, neg_neg]

section Products

variable {a b c e d : Int}

theorem floor_product_mono (nonneg : 0 ≤ d) (le : a * b ≤ c * e) :
    ⌊(a * b : ℚ) / d⌋ ≤ ⌊(c * e : ℚ) / d⌋ := by
  have products : (a * b : ℚ) ≤ c * e := by exact_mod_cast le
  have divisor : (0 : ℚ) ≤ d := by exact_mod_cast nonneg
  exact Int.floor_mono (div_le_div_of_nonneg_right products divisor)

theorem ceil_product_mono (nonneg : 0 ≤ d) (le : a * b ≤ c * e) :
    ⌈(a * b : ℚ) / d⌉ ≤ ⌈(c * e : ℚ) / d⌉ := by
  have products : (a * b : ℚ) ≤ c * e := by exact_mod_cast le
  have divisor : (0 : ℚ) ≤ d := by exact_mod_cast nonneg
  exact Int.ceil_mono (div_le_div_of_nonneg_right products divisor)

theorem floor_product_nonneg (nonneg : 0 ≤ d) (product : 0 ≤ a * b) : 0 ≤ ⌊(a * b : ℚ) / d⌋ := by
  simpa using floor_product_mono (a := 0) (b := 0) nonneg product

theorem floor_product_nonpos (nonneg : 0 ≤ d) (product : a * b ≤ 0) : ⌊(a * b : ℚ) / d⌋ ≤ 0 := by
  simpa using floor_product_mono (c := 0) (e := 0) nonneg product

end Products

/-- Two ceilings in a row come to one. -/
theorem ceil_ceil_div (a : ℚ) {b : Int} (nonneg : 0 ≤ b) : ⌈(⌈a⌉ / b : ℚ)⌉ = ⌈a / b⌉ := by
  rw [← neg_ediv_neg_eq_ceil _ nonneg, ← Int.floor_neg, ← Int.floor_div_cast_of_nonneg nonneg,
    neg_div, Int.floor_neg, neg_neg]

end Solvency
