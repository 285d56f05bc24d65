import Solvency.Proofs.Checked
import Solvency.Proofs.Endings
import Solvency.Proofs.Slots

/-! Weighted collateral in exact arithmetic. Every active balance counts, also one of zero, which
the valuation skips; its value is nothing. -/
namespace Solvency

namespace Exact

/-- A balance with interest. -/
def accrued (a : Accrual) (raw : Int) : Int :=
  ⌊(raw * (if 0 < raw then a.supply else a.borrow : Int) : ℚ) / Fixed.scale⌋

/-- What a balance counts for: its value, weighted unless it is negative. -/
def valued (c : CollateralSlot) (price raw : Int) : Int :=
  let value := ⌊(accrued c.accrual raw * price : ℚ) / Fixed.scale⌋
  if 0 ≤ value then ⌊(value * c.terms.weight : ℚ) / oneWhole⌋ else value

/-- The weighted collateral in whole quote units. -/
def collateral (s : Snapshot) : Int :=
  ⌊((s.balances.map fun (j, raw) => valued (asset s j) (price s j) raw).sum : Int) /
    (Fixed.scale : ℚ)⌋

/-- All that the value of a balance needs is there. -/
structure Valued (s : Snapshot) (j : Nat) : Prop where
  found : s.collateralAt j = .ok (asset s j)
  price : s.priceOf (asset s j).terms.feed = .ok (price s j)

theorem valued_zero (c : CollateralSlot) (price : Int) : valued c price 0 = 0 := by
  simp [valued, accrued]

end Exact

theorem Accrual.apply_eq_ok {a : Accrual} {raw r : Int} (done : a.apply raw = .ok r) :
    r = Exact.accrued a raw := by
  unfold apply at done
  unfold Exact.accrued
  split at done
  · rename_i deposit
    rw [if_pos deposit]
    exact (Fixed.mul_eq_ok.mp done).2
  · rename_i debt
    rw [if_neg debt]
    exact (Fixed.mul_eq_ok.mp done).2

theorem CollateralTerms.weighed_eq_ok {c : CollateralTerms} {value r : Int}
    (done : c.weighed value = .ok r) :
    r = if 0 ≤ value then ⌊(value * c.weight : ℚ) / oneWhole⌋ else value := by
  unfold weighed at done
  split at done
  · rename_i nonneg
    simp only [bind_eq_ok, Width.mul_eq_ok, Width.div_eq_ok] at done
    obtain ⟨_, ⟨_, rfl⟩, _, _, rfl⟩ := done
    rw [if_pos nonneg, Int.cast_mul]
  · rename_i negative
    cases done
    rw [if_neg negative]

namespace Snapshot

variable {s : Snapshot} {j : Nat} {raw r : Int}

theorem balanceValue_eq_ok (done : s.balanceValue true j raw = .ok r) :
    Exact.Valued s j ∧ r = Exact.valued (Exact.asset s j) (Exact.price s j) raw := by
  obtain ⟨slot, found, done⟩ := bind_eq_ok.mp done
  obtain ⟨actual, accrued, done⟩ := bind_eq_ok.mp done
  obtain ⟨price, priced, done⟩ := bind_eq_ok.mp done
  obtain ⟨value, product, weighed⟩ := bind_eq_ok.mp done
  obtain rfl := collateralAt_exact found
  obtain rfl := priceOf_exact priced
  obtain rfl := Accrual.apply_eq_ok accrued
  obtain ⟨_, rfl⟩ := Fixed.mul_eq_ok.mp product
  exact ⟨⟨found, priced⟩, CollateralTerms.weighed_eq_ok weighed⟩

/-- The balances that the valuation skips add nothing. -/
theorem sum_valued (xs : List (Nat × Int)) :
    ((xs.filter fun (_, raw) => raw ≠ 0).map fun (j, raw) =>
      Exact.valued (Exact.asset s j) (Exact.price s j) raw).sum =
    (xs.map fun (j, raw) => Exact.valued (Exact.asset s j) (Exact.price s j) raw).sum := by
  induction xs with
  | nil => rfl
  | cons x rest ih =>
    by_cases zero : x.2 = 0
    · simpa [List.filter_cons, zero, Exact.valued_zero] using ih
    · simpa [List.filter_cons, zero] using ih

theorem balanceValues_eq_ok {values : List (Nat × Int)} (done : s.balanceValues true = .ok values) :
    (values.map (·.2)).sum = (s.balances.map fun (j, raw) =>
      Exact.valued (Exact.asset s j) (Exact.price s j) raw).sum ∧
    ∀ x ∈ s.balances, x.2 ≠ 0 → Exact.Valued s x.1 := by
  have step (x y : Nat × Int)
      (valued : (do let value ← s.balanceValue true x.1 x.2; pure (x.1, value)) = .ok y) :
      Exact.Valued s x.1 ∧ y.2 = Exact.valued (Exact.asset s x.1) (Exact.price s x.1) x.2 := by
    obtain ⟨value, found, made⟩ := bind_eq_ok.mp valued
    cases made
    exact balanceValue_eq_ok found
  constructor
  · rw [← sum_valued]
    exact congrArg List.sum (map_of_mapM (fun x y valued => (step x y valued).2) done)
  · intro x member nonzero
    have listed : x ∈ s.balances.filter fun (_, raw) => raw ≠ 0 :=
      List.mem_filter.mpr ⟨member, by simpa using nonzero⟩
    obtain ⟨y, valued⟩ := mapM_returns_iff.mp ⟨values, done⟩ x listed
    exact (step x y valued).1

theorem totalValue_eq_ok (done : s.totalValue true = .ok r) :
    r = (s.balances.map fun (j, raw) =>
      Exact.valued (Exact.asset s j) (Exact.price s j) raw).sum ∧
    ∀ x ∈ s.balances, x.2 ≠ 0 → Exact.Valued s x.1 := by
  obtain ⟨values, listed, summed⟩ := bind_eq_ok.mp done
  obtain ⟨sum, found⟩ := balanceValues_eq_ok listed
  exact ⟨(Width.sum_eq_ok summed).trans sum, found⟩

/-- Weighted collateral is the exact sum over all active balances, rounded once more. -/
theorem collateral_eq_ok (done : s.collateral = .ok r) :
    r = Exact.collateral s ∧ ∀ x ∈ s.balances, x.2 ≠ 0 → Exact.Valued s x.1 := by
  obtain ⟨value, total, floored⟩ := bind_eq_ok.mp done
  obtain ⟨rfl, found⟩ := totalValue_eq_ok total
  exact ⟨(Fixed.floor_eq_ok.mp floored).2, found⟩

end Snapshot
end Solvency
