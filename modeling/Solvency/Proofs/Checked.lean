import Mathlib.Algebra.Order.BigOperators.Group.List
import Solvency.Arithmetic.Factor
import Solvency.Proofs.Rounding
import Solvency.Proofs.Success

/-! Results of checked arithmetic. An operation succeeds exactly if its exact result, rounded in the
direction that its name gives, lies in the range. -/
namespace Solvency

namespace Width

variable {w : Width} {a b v r : Int}

theorem check_eq_ok : w.check v = .ok r ↔ w.Holds r ∧ r = v := by
  by_cases held : w.Holds v
  · simp only [check, held, if_true, Except.ok.injEq]
    exact ⟨fun same => same ▸ ⟨held, rfl⟩, fun ⟨_, same⟩ => same.symm⟩
  · simp only [check, held, if_false, fail_ne_ok, false_iff]
    rintro ⟨holds, rfl⟩
    exact held holds

theorem add_eq_ok : w.add a b = .ok r ↔ w.Holds r ∧ r = a + b := check_eq_ok

theorem sub_eq_ok : w.sub a b = .ok r ↔ w.Holds r ∧ r = a - b := check_eq_ok

theorem mul_eq_ok : w.mul a b = .ok r ↔ w.Holds r ∧ r = a * b := check_eq_ok

theorem div_eq_ok : w.div a b = .ok r ↔ b ≠ 0 ∧ w.Holds r ∧ r = ⌊(a / b : ℚ)⌋ := by
  by_cases zero : b = 0
  · simp [div, zero]
  · simp [div, zero, check_eq_ok, fdiv_eq_floor]

theorem ceilDiv_eq_ok : w.ceilDiv a b = .ok r ↔ b ≠ 0 ∧ w.Holds r ∧ r = ⌈(a / b : ℚ)⌉ := by
  by_cases zero : b = 0
  · simp [ceilDiv, zero]
  · simp [ceilDiv, zero, check_eq_ok, neg_fdiv_neg_eq_ceil]

theorem sum_eq_ok {xs : List Int} (done : w.sum xs = .ok r) : r = xs.sum := by
  rw [foldlM_eq_ok (· + ·) (fun _ _ _ _ added => (add_eq_ok.mp added).2) done]
  exact List.sum_eq_foldl.symm

end Width

namespace Fixed

variable {a b n x r : Int}

theorem scale_pos : 0 < scale := by decide

theorem ofInt_eq_ok : ofInt n = .ok r ↔ Width.i128.Holds r ∧ r = n * scale := Width.mul_eq_ok

theorem mul_eq_ok :
    Fixed.mul a b = .ok r ↔ Width.i128.Holds r ∧ r = ⌊(a * b : ℚ) / scale⌋ := by
  rw [Fixed.mul, Width.check_eq_ok, ediv_eq_floor _ scale_pos.le, Int.cast_mul]

theorem mulCeil_eq_ok :
    mulCeil a b = .ok r ↔ Width.i128.Holds r ∧ r = ⌈(a * b : ℚ) / scale⌉ := by
  rw [mulCeil, Width.check_eq_ok, neg_ediv_neg_eq_ceil _ scale_pos.le, Int.cast_mul]

theorem ceil_eq_ok : ceil x = .ok r ↔ Width.i64.Holds r ∧ r = ⌈(x : ℚ) / scale⌉ := by
  rw [ceil, Width.check_eq_ok, neg_ediv_neg_eq_ceil _ scale_pos.le]

theorem floor_eq_ok : floor x = .ok r ↔ Width.i64.Holds r ∧ r = ⌊(x : ℚ) / scale⌋ := by
  rw [floor, Width.check_eq_ok, ediv_eq_floor _ scale_pos.le]

/-- The product of a lifted number is exact. -/
theorem mul_lifted (lifted : ofInt n = .ok a) (product : Fixed.mul a b = .ok r) : r = n * b := by
  obtain ⟨_, rfl⟩ := ofInt_eq_ok.mp lifted
  have reordered : n * scale * b = n * b * scale := by ring
  rw [Fixed.mul, Width.check_eq_ok, reordered, Int.mul_ediv_cancel _ scale_pos.ne'] at product
  exact product.2

end Fixed

namespace Factor

variable {base requirement weight r : Int}

theorem maintenance_eq_ok : maintenance base = .ok r ↔ Width.u16.Holds base ∧ r = base / 2 := by
  simp only [maintenance, bind_eq_ok, Width.check_eq_ok, Width.div_eq_ok, ← fdiv_eq_floor]
  constructor
  · rintro ⟨_, ⟨held, rfl⟩, _, _, rfl⟩
    exact ⟨held, Int.fdiv_eq_ediv_of_nonneg _ (by decide)⟩
  · rintro ⟨held, rfl⟩
    have half : Width.u16.Holds (base / 2) := by simp only [Width.Holds, Width.lo, Width.hi] at *; omega
    exact ⟨base, ⟨held, rfl⟩, by decide, half, (Int.fdiv_eq_ediv_of_nonneg _ (by decide)).symm⟩

theorem cancel_eq_ok :
    cancel base = .ok r ↔ Width.u16.Holds (base * 5) ∧ r = base * 5 / 8 := by
  simp only [cancel, bind_eq_ok, Width.mul_eq_ok, Width.div_eq_ok, ← fdiv_eq_floor]
  constructor
  · rintro ⟨_, ⟨held, rfl⟩, _, _, rfl⟩
    exact ⟨held, Int.fdiv_eq_ediv_of_nonneg _ (by decide)⟩
  · rintro ⟨held, rfl⟩
    have part : Width.u16.Holds (base * 5 / 8) := by
      simp only [Width.Holds, Width.lo, Width.hi] at *; omega
    exact ⟨base * 5, ⟨held, rfl⟩, by decide, part, (Int.fdiv_eq_ediv_of_nonneg _ (by decide)).symm⟩

theorem spot_eq_ok : spot requirement weight = .ok r ↔ weight ≠ 0 ∧
    Width.i64.Holds ⌈(requirement / weight : ℚ)⌉ ∧ Width.u16.Holds r ∧
    r = ⌈(requirement / weight : ℚ)⌉ - oneWhole := by
  simp only [spot, bind_eq_ok, Width.ceilDiv_eq_ok, Width.sub_eq_ok]
  constructor
  · rintro ⟨_, ⟨nonzero, ratio, rfl⟩, held, rfl⟩
    exact ⟨nonzero, ratio, held, rfl⟩
  · rintro ⟨nonzero, ratio, held, rfl⟩
    exact ⟨_, ⟨nonzero, ratio, rfl⟩, held, rfl⟩

theorem products_eq_ok {total : Int} {terms : List (Int × Int)}
    (done : products total terms = .ok r) : r = total + (terms.map fun t => t.1 * t.2).sum := by
  induction terms generalizing total with
  | nil => cases done; simp
  | cons term rest ih =>
    simp only [products, bind_eq_ok, Width.mul_eq_ok, Width.add_eq_ok] at done
    obtain ⟨_, ⟨_, rfl⟩, _, ⟨_, rfl⟩, done⟩ := done
    rw [ih done, List.map_cons, List.sum_cons, add_assoc]

theorem products_holds {total : Int} {terms : List (Int × Int)} (start : Width.i64.Holds total)
    (done : products total terms = .ok r) : Width.i64.Holds r := by
  induction terms generalizing total with
  | nil =>
    cases done
    exact start
  | cons term rest ih =>
    simp only [products, bind_eq_ok, Width.add_eq_ok] at done
    obtain ⟨_, _, _, ⟨held, _⟩, done⟩ := done
    exact ih held done

/-- Partial sums of terms that are not negative only grow, so that the last of them decides whether
all of them are in range; no term exceeds it either. -/
theorem products_of_nonneg {total : Int} {terms : List (Int × Int)} (start : 0 ≤ total)
    (nonneg : ∀ t ∈ terms, 0 ≤ t.1 * t.2)
    (fits : total + (terms.map fun t => t.1 * t.2).sum ≤ Width.i64.hi) :
    products total terms = .ok (total + (terms.map fun t => t.1 * t.2).sum) := by
  induction terms generalizing total with
  | nil => simp [products]
  | cons term rest ih =>
    obtain ⟨first, others⟩ := List.forall_mem_cons.mp nonneg
    have remaining : 0 ≤ (rest.map fun t => t.1 * t.2).sum :=
      List.sum_nonneg (List.forall_mem_map.mpr others)
    rw [List.map_cons, List.sum_cons, ← add_assoc] at fits ⊢
    have product : Width.i64.mul term.1 term.2 = .ok (term.1 * term.2) := by
      refine Width.mul_eq_ok.mpr ⟨?_, rfl⟩
      simp only [Width.Holds, Width.lo, Width.hi] at *
      omega
    have added : Width.i64.add total (term.1 * term.2) = .ok (total + term.1 * term.2) := by
      refine Width.add_eq_ok.mpr ⟨?_, rfl⟩
      simp only [Width.Holds, Width.lo, Width.hi] at *
      omega
    rw [products, product, ok_bind, added, ok_bind]
    exact ih (by omega) others fits

theorem dot_eq_ok {factors notionals : List Int} (done : dot factors notionals = .ok r) :
    r = ((factors.zip notionals).map fun t => t.1 * t.2).sum := by
  unfold dot at done
  split at done
  · exact absurd done (fail_ne_ok _ _)
  · rw [products_eq_ok done, zero_add]

theorem dot_holds {factors notionals : List Int} (done : dot factors notionals = .ok r) :
    Width.i64.Holds r := by
  unfold dot at done
  split at done
  · exact absurd done (fail_ne_ok _ _)
  · exact products_holds (by decide) done

theorem dot_of_nonneg {factors notionals : List Int} (paired : factors.length = notionals.length)
    (nonneg : ∀ t ∈ factors.zip notionals, 0 ≤ t.1 * t.2)
    (fits : ((factors.zip notionals).map fun t => t.1 * t.2).sum ≤ Width.i64.hi) :
    dot factors notionals = .ok ((factors.zip notionals).map fun t => t.1 * t.2).sum := by
  rw [dot, if_neg (not_not.mpr paired), products_of_nonneg le_rfl nonneg (by rwa [zero_add]), zero_add]

end Factor
end Solvency
