import Solvency.Proofs.Checked
import Solvency.Proofs.Slots

/-! The fold over the borrows. Where it succeeds, every borrow contributes its exact notional, and the
exact factor of its asset to each vector that is asked for. -/
namespace Solvency

theorem Accrual.apply_borrow {a : Accrual} {raw r : Int} (owed : raw < 0)
    (done : a.apply raw = .ok r) : r = ⌊(raw * a.borrow : ℚ) / Fixed.scale⌋ := by
  rw [apply, if_neg (by omega), Fixed.mul_eq_ok] at done
  exact done.2

/-- Pricing rounds up twice, which comes to one rounding. -/
theorem Snapshot.priced_eq_ok {s : Snapshot} {j : Nat} {debt r : Int}
    (done : (do
      let price ← s.priceOf (Exact.asset s j).terms.feed
      let value ← Fixed.mulCeil price (-debt)
      let units ← Fixed.ceil value
      pure (max 0 units)) = .ok r) :
    s.priceOf (Exact.asset s j).terms.feed = .ok (Exact.price s j) ∧
    r = max 0 ⌈(Exact.price s j * -debt : ℚ) / Fixed.scale ^ 2⌉ := by
  simp only [bind_eq_ok, Fixed.mulCeil_eq_ok, Fixed.ceil_eq_ok] at done
  obtain ⟨price, found, _, ⟨_, rfl⟩, _, ⟨_, rfl⟩, made⟩ := done
  cases made
  obtain rfl := priceOf_exact found
  refine ⟨found, ?_⟩
  rw [ceil_ceil_div _ Fixed.scale_pos.le, div_div, ← sq, Int.cast_neg]

theorem Snapshot.borrowNotional_eq_ok {s : Snapshot} {realized : Int} {j : Nat} {raw r : Int}
    (owed : raw < 0) (done : s.borrowNotional (Exact.asset s j) realized j raw = .ok r) :
    s.priceOf (Exact.asset s j).terms.feed = .ok (Exact.price s j) ∧
    r = Exact.borrowed s realized j raw := by
  unfold borrowNotional at done
  obtain ⟨debt, accrued, done⟩ := bind_eq_ok.mp done
  obtain rfl := Accrual.apply_borrow owed accrued
  unfold Exact.borrowed Exact.balance
  split at done
  · rename_i settlement
    obtain ⟨_, lifted, done⟩ := bind_eq_ok.mp done
    obtain ⟨_, settled, done⟩ := bind_eq_ok.mp done
    obtain ⟨_, rfl⟩ := Fixed.ofInt_eq_ok.mp lifted
    obtain ⟨_, rfl⟩ := Width.add_eq_ok.mp settled
    rw [if_pos settlement]
    exact priced_eq_ok done
  · rename_i other
    rw [if_neg other, add_zero]
    exact priced_eq_ok done

theorem CollateralTerms.borrowFactors_eq_ok {c : CollateralTerms} {wanted : FactorChoice}
    {required : Requirements} {factors : Option Int × Option Int}
    (done : c.borrowFactors wanted required = .ok factors) :
    c.weight ≠ 0 ∧
    factors.1.toList = (if wanted.hasInitial || wanted.hasCancel then
      [Exact.assetFactor .initial required c.weight] else []) ∧
    factors.2.toList = if wanted.hasMaintenance then
      [Exact.assetFactor .maintenance required c.weight] else [] := by
  cases wanted
  all_goals
    simp only [borrowFactors, FactorChoice.hasInitial, FactorChoice.hasCancel,
      FactorChoice.hasMaintenance, bind_eq_ok, map_eq_ok, Factor.spot_eq_ok, Bool.or_false,
      Bool.or_true, Bool.false_eq_true, if_true, if_false] at done ⊢
  case maintenance =>
    obtain ⟨_, none, _, ⟨_, ⟨weight, _, _, rfl⟩, rfl⟩, made⟩ := done
    cases none
    cases made
    exact ⟨weight, rfl, rfl⟩
  case both =>
    obtain ⟨_, ⟨_, ⟨weight, _, _, rfl⟩, rfl⟩, _, ⟨_, ⟨_, _, _, rfl⟩, rfl⟩, made⟩ := done
    cases made
    exact ⟨weight, rfl, rfl⟩
  all_goals
    obtain ⟨_, ⟨_, ⟨weight, _, _, rfl⟩, rfl⟩, _, none, made⟩ := done
    cases none
    cases made
    exact ⟨weight, rfl, rfl⟩

namespace BorrowTotals

/-- What a list of borrows adds to the totals. -/
def sums (s : Snapshot) (realized : Int) (wanted : FactorChoice) (required : Requirements)
    (b : BorrowTotals) (xs : List (Nat × Int)) : BorrowTotals where
  hasExposure := b.hasExposure || xs.any fun (j, raw) => 0 < Exact.borrowed s realized j raw
  initialFactors := b.initialFactors ++ if wanted.hasInitial || wanted.hasCancel then
    xs.map fun (j, _) => Exact.assetFactor .initial required (Exact.asset s j).terms.weight else []
  maintenanceFactors := b.maintenanceFactors ++ if wanted.hasMaintenance then
    xs.map fun (j, _) => Exact.assetFactor .maintenance required (Exact.asset s j).terms.weight
    else []
  notionals := b.notionals ++ xs.map fun (j, raw) => Exact.borrowed s realized j raw

/-- The exact step of the fold. -/
def plus (s : Snapshot) (realized : Int) (wanted : FactorChoice) (required : Requirements)
    (b : BorrowTotals) (x : Nat × Int) : BorrowTotals := sums s realized wanted required b [x]

theorem foldl_plus (s : Snapshot) (realized : Int) (wanted : FactorChoice)
    (required : Requirements) (b : BorrowTotals) (xs : List (Nat × Int)) :
    xs.foldl (plus s realized wanted required) b = sums s realized wanted required b xs := by
  induction xs generalizing b with
  | nil => simp [sums]
  | cons x rest ih =>
    rw [List.foldl_cons, ih]
    cases wanted <;> simp [sums, plus, Bool.or_assoc, FactorChoice.hasInitial,
      FactorChoice.hasMaintenance, FactorChoice.hasCancel]

theorem add_eq_plus (s : Snapshot) (realized : Int) {wanted : FactorChoice}
    {required : Requirements} (b : BorrowTotals) (j : Nat) (raw : Int)
    {factors : Option Int × Option Int}
    (done : (Exact.asset s j).terms.borrowFactors wanted required = .ok factors) :
    b.add (Exact.borrowed s realized j raw) factors =
      plus s realized wanted required b (j, raw) := by
  obtain ⟨_, initial, maintenance⟩ := CollateralTerms.borrowFactors_eq_ok done
  simp [add, plus, sums, initial, maintenance]

end BorrowTotals

namespace Snapshot

variable {s : Snapshot} {realized : Int} {wanted : FactorChoice} {required : Requirements}
  {b : BorrowTotals}

theorem borrowTotals_eq_ok (done : s.borrowTotals realized wanted required = .ok b) :
    b = BorrowTotals.sums s realized wanted required {} (Exact.borrows s) := by
  rw [← BorrowTotals.foldl_plus]
  refine foldlM_eq_ok _ (fun b b' x member step => ?_) done
  obtain ⟨j, raw⟩ := x
  have owed : raw < 0 := (mem_borrows.mp member).2
  obtain ⟨c, found, step⟩ := bind_eq_ok.mp step
  obtain ⟨notional, valued, step⟩ := bind_eq_ok.mp step
  obtain ⟨factors, factored, made⟩ := bind_eq_ok.mp step
  obtain rfl := collateralAt_exact found
  obtain ⟨_, rfl⟩ := borrowNotional_eq_ok owed valued
  cases made
  exact BorrowTotals.add_eq_plus s realized b j raw factored

theorem priced_of_borrowTotals (done : s.borrowTotals realized wanted required = .ok b) :
    ∀ x ∈ Exact.borrows s, Exact.Priced s x.1 := by
  refine forall_of_foldlM (fun b b' x member step => ?_) done
  obtain ⟨j, raw⟩ := x
  have owed : raw < 0 := (mem_borrows.mp member).2
  obtain ⟨c, found, step⟩ := bind_eq_ok.mp step
  obtain ⟨notional, valued, step⟩ := bind_eq_ok.mp step
  obtain ⟨factors, factored, _⟩ := bind_eq_ok.mp step
  obtain rfl := collateralAt_exact found
  exact ⟨found, (borrowNotional_eq_ok owed valued).1,
    (CollateralTerms.borrowFactors_eq_ok factored).1⟩

end Snapshot
end Solvency
