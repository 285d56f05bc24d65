import Solvency.Proofs.RestingOrders

/-! Withdrawing resting orders. Less of an order on one side may leave more of a position once the rest
of it has filled, but the worse of the two fills can only become smaller. So nothing more is required
of an account that withdraws orders, its budget stays, and it passes every check that it has passed. -/
namespace Solvency

/-- The second position has no more resting on either side, and is the same otherwise. -/
structure Position.Withdrawn (p q : Position) : Prop where
  reordered : p.Reordered q
  bids : q.bids ≤ p.bids
  asks : q.asks ≤ p.asks

/-- Slot by slot, the second account has no more orders resting, at the same protocol data. -/
structure Snapshot.Withdrawn (s t : Snapshot) : Prop where
  protocol : t = { s with account := { s.account with positions := t.account.positions } }
  positions : List.Forall₂ (Option.Rel Position.Withdrawn) s.account.positions t.account.positions

namespace Exact

section Positions

variable {p q : Position} {mark : Int}

/-- A partial fill of one side lies between none and all of it. -/
theorem worst_le_of_withdrawn (withdrawn : p.Withdrawn q) (bids : 0 ≤ q.bids) (asks : 0 ≤ q.asks) :
    max |q.size + q.bids| |q.size - q.asks| ≤ max |p.size + p.bids| |p.size - p.asks| := by
  have size : q.size = p.size := by rw [withdrawn.reordered]
  have bought := withdrawn.bids
  have sold := withdrawn.asks
  have unfilled := size_le_worst (bids.trans bought) (asks.trans sold)
  rw [size]
  apply max_le
  · have between : |p.size + q.bids| ≤ max |p.size| |p.size + p.bids| :=
      abs_le_max_abs_abs (by omega) (by omega)
    exact between.trans (max_le unfilled (le_max_left _ _))
  · have between : |p.size - q.asks| ≤ max |p.size - p.asks| |p.size| :=
      abs_le_max_abs_abs (by omega) (by omega)
    exact between.trans (max_le (le_max_right _ _) unfilled)

theorem filled_le_of_withdrawn (withdrawn : p.Withdrawn q) (bids : 0 ≤ q.bids) (asks : 0 ≤ q.asks)
    (nonneg : 0 ≤ mark) : filled q mark ≤ filled p mark := by
  have units : ((max |q.size + q.bids| |q.size - q.asks| : Int) : ℚ) ≤
      (max |p.size + p.bids| |p.size - p.asks| : Int) := by
    exact_mod_cast worst_le_of_withdrawn withdrawn bids asks
  have priced : (0 : ℚ) ≤ mark := by exact_mod_cast nonneg
  have := scale_pos
  unfold filled
  gcongr

theorem notional_le_of_withdrawn (kind : FractionKind) (withdrawn : p.Withdrawn q)
    (bids : 0 ≤ q.bids) (asks : 0 ≤ q.asks) (nonneg : 0 ≤ mark) :
    notional kind q mark ≤ notional kind p mark := by
  cases kind
  case maintenance => exact (held_reordered withdrawn.reordered mark).le
  all_goals exact filled_le_of_withdrawn withdrawn bids asks nonneg

end Positions

/-- Nothing is required of an account that could be negative. -/
theorem requirement_nonneg {s : Snapshot} {kind : FractionKind} {required : Requirements}
    (accepted : s.violations = []) (marks : ∀ x ∈ s.positions, 0 ≤ (market s x.1).mark)
    (marked : ∀ x ∈ s.positions, Marked s x.1 x.2)
    (chargeable : ∀ x ∈ borrows s, Chargeable s kind required x.1) :
    0 ≤ requirement s kind required := by
  have weighed := weighed_nonneg kind accepted marks marked
  have charged (x) (member : x ∈ borrows s) := (chargeable x member).charge_nonneg
  exact add_nonneg (List.sum_nonneg (List.forall_mem_map.mpr weighed))
    (List.sum_nonneg (List.forall_mem_map.mpr charged))

section Accounts

variable {s t : Snapshot} (withdrawn : s.Withdrawn t)

include withdrawn

theorem reordered_of_withdrawn : s.Reordered t where
  protocol := withdrawn.protocol
  positions := by
    refine withdrawn.positions.imp ?_
    rintro _ _ (position | _)
    · exact .some position.reordered
    · exact .none

theorem positions_withdrawn :
    List.Forall₂ (fun x y => y.1 = x.1 ∧ x.2.Withdrawn y.2) s.positions t.positions := by
  have count : t.marketCount = s.marketCount := by rw [withdrawn.protocol]
  exact Snapshot.positions_related count withdrawn.positions

theorem budget_withdrawn (kind : FractionKind) (collateral : Int) :
    budget t kind collateral = budget s kind collateral := by
  have reordered := reordered_of_withdrawn withdrawn
  have value := accountValue_reordered reordered collateral
  have profit := realized_reordered reordered
  cases kind <;> simp only [budget, value, profit]

/-- Orders that are withdrawn do not expose an account. -/
theorem exposed_of_withdrawn (accepted : t.violations = [])
    (marks : ∀ x ∈ s.positions, 0 ≤ (market s x.1).mark) (exposed : Exposed t) : Exposed s := by
  have reordered := reordered_of_withdrawn withdrawn
  rcases exposed with ⟨y, member, positive⟩ | ⟨y, member, positive⟩
  · obtain ⟨x, listed, index, position⟩ :=
      exists_left_of_mem (positions_withdrawn withdrawn) member
    obtain ⟨bids, _, asks, _⟩ := Snapshot.orders_of_accepted accepted member
    rw [index, market_reordered reordered] at positive
    have larger := filled_le_of_withdrawn position bids asks (marks x listed)
    exact .inl ⟨x, listed, positive.trans_le larger⟩
  · rw [borrows_reordered reordered] at member
    rw [realized_reordered reordered, (charged_reordered reordered _ _ _).2] at positive
    exact .inr ⟨y, member, positive⟩

/-- Slot by slot no more is weighed, and the borrows are the same. -/
theorem requirement_withdrawn_le (kind : FractionKind) (required : Requirements)
    (accepted : t.violations = []) (marks : ∀ x ∈ s.positions, 0 ≤ (market s x.1).mark)
    (marked : ∀ x ∈ s.positions, Marked s x.1 x.2) :
    requirement t kind required ≤ requirement s kind required := by
  have reordered := reordered_of_withdrawn withdrawn
  have charged (x : Nat × Int) := charged_reordered reordered (realized s) x.1 x.2
  refine add_le_add ?_ (le_of_eq ?_)
  · refine sum_le_of_forall₂ ((forall₂_with_mem (positions_withdrawn withdrawn)).imp ?_).flip
    rintro x y ⟨⟨index, position⟩, member, member'⟩
    obtain ⟨bids, _, asks, _⟩ := Snapshot.orders_of_accepted accepted member'
    have base : 0 ≤ (market s x.1).terms.baseFactor := (marked x member).factor.1
    show marketFactor kind (market t y.1).terms.baseFactor * notional kind y.2 (market t y.1).mark ≤
      marketFactor kind (market s x.1).terms.baseFactor * notional kind x.2 (market s x.1).mark
    rw [index, market_reordered reordered]
    exact mul_le_mul_of_nonneg_left
      (notional_le_of_withdrawn kind position bids asks (marks x member))
      (marketFactor_nonneg kind base)
  · rw [borrows_reordered reordered, realized_reordered reordered]
    simp only [charged]

end Accounts

end Exact

namespace Snapshot

/-- An account that withdraws resting orders passes every check that it has passed before. No more is
required of it, and if it is still exposed it was before, with the same budget. -/
theorem passed_of_withdrawn (s t : Snapshot) (kind : FractionKind) (collateral : Int)
    (required : Requirements) (o o' : FractionOutcome) (accepted : s.violations = [])
    (accepted' : t.violations = []) (marks : ∀ mark ∈ s.marks.take s.marketCount.toNat, 0 ≤ mark)
    (withdrawn : s.Withdrawn t) (done : s.evaluate kind collateral required = .ok o)
    (done' : t.evaluate kind collateral required = .ok o') :
    (o.passed = true → o'.passed = true) ∧ o'.requirement ≤ o.requirement ∧
    (o'.hasExposure = true → o.hasExposure = true ∧ o'.budget = o.budget) := by
  have markets : ∀ x ∈ s.positions, 0 ≤ (Exact.market s x.1).mark :=
    fun _ member => mark_nonneg member marks
  have marked := (evaluate_eq_ok done).2.1
  by_cases exposed' : Exact.Exposed t
  · have exposed := Exact.exposed_of_withdrawn withdrawn accepted' markets exposed'
    have asked := Exact.requirement_withdrawn_le withdrawn kind required accepted' markets marked
    have allowed := Exact.budget_withdrawn withdrawn kind collateral
    rw [evaluate_exposed done exposed, evaluate_exposed done' exposed', allowed]
    refine ⟨fun passed => ?_, asked, fun _ => ⟨rfl, rfl⟩⟩
    exact decide_eq_true (asked.trans_lt (of_decide_eq_true passed))
  · rw [evaluate_unexposed done' exposed']
    refine ⟨fun _ => rfl, ?_, by simp⟩
    by_cases exposed : Exact.Exposed s
    · rw [evaluate_exposed done exposed]
      exact Exact.requirement_nonneg accepted markets marked (chargeable_of_evaluate accepted done)
    · rw [evaluate_unexposed done exposed]

/-- The sample account without the orders that rest on the side that reduces a position, and with fewer
on the other one. -/
def retreated : Snapshot where
  __ := sample
  account := { sample.account with
    positions := [
      some { key := 1 :: List.replicate 31 0, size := 3, quoteTotal := -95, realized := 30,
             bids := 2, funding := 7 },
      none,
      some { key := 2 :: List.replicate 31 0, size := -4, quoteTotal := 350, realized := -12,
             asks := 1 },
      some { key := 3 :: List.replicate 31 0, realized := 2, bids := 1 }] }

theorem retreated_withdrawn : sample.Withdrawn retreated where
  protocol := rfl
  positions := .cons (.some ⟨rfl, by decide, by decide⟩) <| .cons .none <|
    .cons (.some ⟨rfl, by decide, by decide⟩) <| .cons (.some ⟨rfl, by decide, by decide⟩) .nil

/-- With collateral of 73 the sample account just passes, and needs much less without these orders. -/
theorem passed_of_withdrawn_retreated :
    sample.violations = [] ∧ retreated.violations = [] ∧ sample.Withdrawn retreated ∧
    ∃ o o', sample.evaluate .initial 73 {} = .ok o ∧ retreated.evaluate .initial 73 {} = .ok o' ∧
      o.passed = true ∧ o'.passed = true ∧ o'.requirement ≤ o.requirement := by
  have accepted : sample.violations = [] := by decide
  have accepted' : retreated.violations = [] := by decide
  have marks : ∀ mark ∈ sample.marks.take sample.marketCount.toNat, 0 ≤ mark := by decide
  have done : sample.evaluate .initial 73 {} = .ok ⟨.initial, true, true, 93000, 92934⟩ := by cbv
  have done' : retreated.evaluate .initial 73 {} = .ok ⟨.initial, true, true, 93000, 58774⟩ := by cbv
  obtain ⟨passes, asked, _⟩ := passed_of_withdrawn _ _ _ _ _ _ _ accepted accepted' marks
    retreated_withdrawn done done'
  exact ⟨accepted, accepted', retreated_withdrawn, _, _, done, done', rfl, passes rfl, asked⟩

end Snapshot
end Solvency
