import Mathlib.Algebra.Order.BigOperators.Group.List
import Solvency.Proofs.Accepted
import Solvency.Proofs.Fraction

/-! The fractions are nested. Maintenance asks no more than the cancel check, which asks no more than
the initial check, and allows at least as much. -/
namespace Solvency

namespace Exact

variable {s : Snapshot} {p : Position} {mark : Int} {base : Int} {required : Requirements}

theorem scale_pos : (0 : ℚ) < Fixed.scale := by exact_mod_cast Fixed.scale_pos

theorem held_nonneg (p : Position) (nonneg : 0 ≤ mark) : 0 ≤ held p mark := by
  have units : (0 : ℚ) ≤ |p.size| := by exact_mod_cast abs_nonneg p.size
  have priced : (0 : ℚ) ≤ mark := by exact_mod_cast nonneg
  exact Int.ceil_nonneg (div_nonneg (mul_nonneg units priced) scale_pos.le)

/-- Resting orders on either side only add to what a position may come to. -/
theorem size_le_worst (bids : 0 ≤ p.bids) (asks : 0 ≤ p.asks) :
    |p.size| ≤ max |p.size + p.bids| |p.size - p.asks| := by
  rcases le_total 0 p.size with long | short
  · refine le_max_of_le_left ?_
    rw [abs_of_nonneg long, abs_of_nonneg (by omega)]
    omega
  · refine le_max_of_le_right ?_
    rw [abs_of_nonpos short, abs_of_nonpos (by omega)]
    omega

theorem held_le_filled (bids : 0 ≤ p.bids) (asks : 0 ≤ p.asks) (nonneg : 0 ≤ mark) :
    held p mark ≤ filled p mark := by
  have units : ((|p.size| : Int) : ℚ) ≤ (max |p.size + p.bids| |p.size - p.asks| : Int) := by
    exact_mod_cast size_le_worst bids asks
  have priced : (0 : ℚ) ≤ mark := by exact_mod_cast nonneg
  have := scale_pos
  unfold held filled
  gcongr

theorem filled_nonneg (bids : 0 ≤ p.bids) (asks : 0 ≤ p.asks) (nonneg : 0 ≤ mark) :
    0 ≤ filled p mark :=
  (held_nonneg p nonneg).trans (held_le_filled bids asks nonneg)

theorem notional_nonneg (kind : FractionKind) (bids : 0 ≤ p.bids) (asks : 0 ≤ p.asks)
    (nonneg : 0 ≤ mark) : 0 ≤ notional kind p mark := by
  cases kind
  case maintenance => exact held_nonneg p nonneg
  all_goals exact filled_nonneg bids asks nonneg

theorem marketFactor_nonneg (kind : FractionKind) (nonneg : 0 ≤ base) :
    0 ≤ marketFactor kind base := by
  cases kind <;> simp only [marketFactor] <;> omega

/-- No position of an accepted account counts negative. -/
theorem weighed_nonneg (kind : FractionKind) (accepted : s.violations = [])
    (marks : ∀ x ∈ s.positions, 0 ≤ (market s x.1).mark)
    (marked : ∀ x ∈ s.positions, Marked s x.1 x.2) : ∀ x ∈ s.positions,
      0 ≤ marketFactor kind (market s x.1).terms.baseFactor *
        notional kind x.2 (market s x.1).mark := by
  intro x member
  obtain ⟨bids, _, asks, _⟩ := Snapshot.orders_of_accepted accepted member
  have base : 0 ≤ (market s x.1).terms.baseFactor := (marked x member).factor.1
  exact mul_nonneg (marketFactor_nonneg kind base)
    (notional_nonneg kind bids asks (marks x member))

theorem assetFactor_mono (weight : Int) (positive : 0 < weight)
    (ratios : required.maintenance ≤ required.initial) :
    assetFactor .maintenance required weight ≤ assetFactor .initial required weight := by
  have whole : (0 : ℚ) < weight := by exact_mod_cast positive
  have asked : (required.maintenance : ℚ) ≤ required.initial := by exact_mod_cast ratios
  simp only [assetFactor, ratio]
  gcongr

/-- A requirement grows with the weighted notional of each position and the factor of each borrow. -/
theorem requirement_mono {kind kind' : FractionKind}
    (positions : ∀ x ∈ s.positions,
      marketFactor kind (market s x.1).terms.baseFactor * notional kind x.2 (market s x.1).mark ≤
      marketFactor kind' (market s x.1).terms.baseFactor * notional kind' x.2 (market s x.1).mark)
    (factors : ∀ x ∈ borrows s, assetFactor kind required (asset s x.1).terms.weight ≤
      assetFactor kind' required (asset s x.1).terms.weight) :
    requirement s kind required ≤ requirement s kind' required := by
  have borrowed (x) (member : x ∈ borrows s) :
      assetFactor kind required (asset s x.1).terms.weight * borrowed s (realized s) x.1 x.2 ≤
      assetFactor kind' required (asset s x.1).terms.weight * borrowed s (realized s) x.1 x.2 :=
    mul_le_mul_of_nonneg_right (factors x member) (le_max_left _ _)
  exact add_le_add (List.sum_le_sum positions) (List.sum_le_sum borrowed)

/-- Where no notional is weighed nothing is required. -/
theorem requirement_eq_zero {kind : FractionKind}
    (positions : ∀ x ∈ s.positions, notional kind x.2 (market s x.1).mark = 0)
    (owed : ∀ x ∈ borrows s, borrowed s (realized s) x.1 x.2 = 0) :
    requirement s kind required = 0 := by
  have weighed (x) (member : x ∈ s.positions) : marketFactor kind (market s x.1).terms.baseFactor *
      notional kind x.2 (market s x.1).mark = 0 := mul_eq_zero_of_right _ (positions x member)
  have charged (x) (member : x ∈ borrows s) : assetFactor kind required (asset s x.1).terms.weight *
      borrowed s (realized s) x.1 x.2 = 0 := mul_eq_zero_of_right _ (owed x member)
  exact (congrArg₂ (· + ·) (List.sum_eq_zero (List.forall_mem_map.mpr weighed))
    (List.sum_eq_zero (List.forall_mem_map.mpr charged))).trans (add_zero 0)

/-- Half the base factor is at most five eighths of it, and what is held is at most what may fill. -/
theorem requirement_maintenance_le (accepted : s.violations = [])
    (marks : ∀ x ∈ s.positions, 0 ≤ (market s x.1).mark)
    (marked : ∀ x ∈ s.positions, Marked s x.1 x.2) (priced : ∀ x ∈ borrows s, Priced s x.1)
    (ratios : required.maintenance ≤ required.initial) :
    requirement s .maintenance required ≤ requirement s .cancel required := by
  apply requirement_mono
  · intro x member
    obtain ⟨bids, _, asks, _⟩ := Snapshot.orders_of_accepted accepted member
    have base := (marked x member).factor.1
    have half : marketFactor .maintenance (market s x.1).terms.baseFactor ≤
        marketFactor .cancel (market s x.1).terms.baseFactor := by
      simp only [marketFactor, Width.lo] at *
      omega
    exact mul_le_mul half (held_le_filled bids asks (marks x member))
      (held_nonneg x.2 (marks x member)) (marketFactor_nonneg .cancel base)
  · intro x member
    obtain ⟨j, raw⟩ := x
    have balance := (Snapshot.mem_borrows.mp member).1
    have weight := Snapshot.weight_of_accepted accepted balance (priced _ member).found
    exact assetFactor_mono _ weight.1 ratios

theorem requirement_cancel_le (marks : ∀ x ∈ s.positions, 0 ≤ (market s x.1).mark)
    (accepted : s.violations = []) (marked : ∀ x ∈ s.positions, Marked s x.1 x.2) :
    requirement s .cancel required ≤ requirement s .initial required := by
  apply requirement_mono
  · intro x member
    obtain ⟨bids, _, asks, _⟩ := Snapshot.orders_of_accepted accepted member
    have base := (marked x member).factor.1
    have part : marketFactor .cancel (market s x.1).terms.baseFactor ≤
        marketFactor .initial (market s x.1).terms.baseFactor := by
      simp only [marketFactor, Width.lo] at *
      omega
    exact mul_le_mul_of_nonneg_right part (filled_nonneg bids asks (marks x member))
  · exact fun _ _ => le_rfl

/-- The budgets differ in what they make of unrealized profit. -/
theorem budget_cancel_le (s : Snapshot) (collateral : Int) :
    budget s .cancel collateral ≤ budget s .maintenance collateral :=
  mul_le_mul_of_nonneg_right (min_le_left _ _) (by decide)

end Exact

namespace Snapshot

variable {s : Snapshot}

theorem mark_nonneg {i : Nat} {p : Position} (member : (i, p) ∈ s.positions)
    (marks : ∀ mark ∈ s.marks.take s.marketCount.toNat, 0 ≤ mark) :
    0 ≤ (Exact.market s i).mark := by
  have active := (mem_positions.mp member).1
  cases found : s.marks[i]? with
  | none => simp [Exact.market, found]
  | some mark =>
    have taken : (s.marks.take s.marketCount.toNat)[i]? = some mark := by
      rw [List.getElem?_take, if_pos (by omega), found]
    simpa [Exact.market, found] using marks mark (List.mem_of_getElem? taken)

/-- An account that passes the initial check passes the cancel check, and one that passes the cancel
check is not liquidatable. -/
theorem levels_nested (s : Snapshot) (required : Requirements) (collateral : Int)
    (initial cancel maintenance : FractionOutcome) (accepted : s.violations = [])
    (marks : ∀ mark ∈ s.marks.take s.marketCount.toNat, 0 ≤ mark)
    (ratios : 0 < required.maintenance ∧ required.maintenance ≤ required.initial)
    (atInitial : s.evaluate .initial collateral required = .ok initial)
    (atCancel : s.evaluate .cancel collateral required = .ok cancel)
    (atMaintenance : s.evaluate .maintenance collateral required = .ok maintenance) :
    (initial.hasExposure = cancel.hasExposure ∧ cancel.hasExposure = maintenance.hasExposure) ∧
    (maintenance.requirement ≤ cancel.requirement ∧ cancel.requirement ≤ initial.requirement) ∧
    (initial.budget = cancel.budget ∧ cancel.budget ≤ maintenance.budget) ∧
    (initial.passed = true → cancel.passed = true) ∧
    (cancel.passed = true → maintenance.passed = true) := by
  obtain ⟨_, marked, priced⟩ := evaluate_eq_ok atInitial
  by_cases exposed : Exact.Exposed s
  · have markets : ∀ x ∈ s.positions, 0 ≤ (Exact.market s x.1).mark :=
      fun _ member => mark_nonneg member marks
    have held := Exact.requirement_maintenance_le accepted markets marked priced ratios.2
    have filled : Exact.requirement s .cancel required ≤ Exact.requirement s .initial required :=
      Exact.requirement_cancel_le markets accepted marked
    have allowed := Exact.budget_cancel_le s collateral
    have same : Exact.budget s .initial collateral = Exact.budget s .cancel collateral := rfl
    rw [evaluate_exposed atInitial exposed, evaluate_exposed atCancel exposed,
      evaluate_exposed atMaintenance exposed]
    refine ⟨⟨rfl, rfl⟩, ⟨held, filled⟩, ⟨same, allowed⟩, ?_, ?_⟩
    · simp only [decide_eq_true_eq]
      omega
    · simp only [decide_eq_true_eq]
      omega
  · rw [evaluate_unexposed atInitial exposed, evaluate_unexposed atCancel exposed,
      evaluate_unexposed atMaintenance exposed]
    simp

theorem levels_nested_sample : ∃ initial cancel maintenance : FractionOutcome,
    sample.violations = [] ∧ (∀ mark ∈ sample.marks.take sample.marketCount.toNat, 0 ≤ mark) ∧
    sample.evaluate .initial 60 {} = .ok initial ∧ sample.evaluate .cancel 60 {} = .ok cancel ∧
    sample.evaluate .maintenance 60 {} = .ok maintenance ∧
    initial.passed = false ∧ cancel.passed = true ∧ maintenance.passed = true := by
  have accepted : sample.violations = [] := by decide
  have marks : ∀ mark ∈ sample.marks.take sample.marketCount.toNat, 0 ≤ mark := by decide
  have atInitial : sample.evaluate .initial 60 {} =
    .ok ⟨.initial, false, true, 80000, 92934⟩ := by cbv
  have atCancel : sample.evaluate .cancel 60 {} = .ok ⟨.cancel, true, true, 80000, 64193⟩ := by cbv
  have atMaintenance : sample.evaluate .maintenance 60 {} =
    .ok ⟨.maintenance, true, true, 99000, 24870⟩ := by cbv
  obtain ⟨_, _, _, _, passes⟩ := levels_nested sample {} 60 _ _ _ accepted marks (by decide)
    atInitial atCancel atMaintenance
  exact ⟨_, _, _, accepted, marks, atInitial, atCancel, atMaintenance, rfl, rfl, passes rfl⟩

end Snapshot
end Solvency
