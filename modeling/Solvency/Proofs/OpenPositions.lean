import Solvency.Proofs.Levels

/-! Open positions and exposure. Validation bounds everything that a position's notional comes from but
the mark price. So a position that holds something carries exposure exactly if the mark of its market
is positive, and an account without a positive mark and without debt passes every check. -/
namespace Solvency

/-- The position holds something, or has something resting. -/
def Position.Open (p : Position) : Prop := p.size ≠ 0 ∨ 0 < p.bids ∨ 0 < p.asks

namespace Exact

variable {s : Snapshot} {p : Position} {mark : Int}

/-- The notional of some units is positive exactly if there are any, at a positive price. -/
theorem ceil_product_pos {units : Int} (nonneg : 0 ≤ units) :
    0 < ⌈(units * mark : ℚ) / Fixed.scale⌉ ↔ 0 < units ∧ 0 < mark := by
  rw [Int.ceil_pos, div_pos_iff_of_pos_right scale_pos, ← Int.cast_mul, Int.cast_pos]
  constructor
  · intro positive
    have some_units : 0 < units := by
      refine nonneg.lt_of_ne fun none => ?_
      rw [← none, zero_mul] at positive
      exact lt_irrefl 0 positive
    exact ⟨some_units, (pos_iff_pos_of_mul_pos positive).mp some_units⟩
  · rintro ⟨some_units, priced⟩
    exact mul_pos some_units priced

theorem held_pos_iff : 0 < held p mark ↔ p.size ≠ 0 ∧ 0 < mark := by
  rw [held, ceil_product_pos (abs_nonneg p.size), abs_pos]

/-- Orders rest on both sides at once, so a position with any cannot come to nothing. -/
theorem worst_pos_iff (bids : 0 ≤ p.bids) (asks : 0 ≤ p.asks) :
    0 < max |p.size + p.bids| |p.size - p.asks| ↔ p.Open := by
  rw [lt_max_iff, abs_pos, abs_pos, Position.Open]
  omega

theorem filled_pos_iff (bids : 0 ≤ p.bids) (asks : 0 ≤ p.asks) :
    0 < filled p mark ↔ p.Open ∧ 0 < mark := by
  have nonneg : 0 ≤ max |p.size + p.bids| |p.size - p.asks| := le_max_of_le_left (abs_nonneg _)
  rw [filled, ceil_product_pos nonneg, worst_pos_iff bids asks]

theorem exposed_iff_of_accepted (accepted : s.violations = []) : Exposed s ↔
    (∃ x ∈ s.positions, x.2.Open ∧ 0 < (market s x.1).mark) ∨
      ∃ x ∈ borrows s, 0 < borrowed s (realized s) x.1 x.2 := by
  refine or_congr_left (exists_congr fun x => and_congr_right fun member => ?_)
  obtain ⟨bids, _, asks, _⟩ := Snapshot.orders_of_accepted accepted member
  exact filled_pos_iff bids asks

end Exact

namespace Snapshot

variable {s : Snapshot}

theorem heldNotionals_pos {collateral : Int} {wanted : FactorChoice} {t : PerpTotals}
    (done : s.perpTotals collateral wanted = .ok t) :
    List.Forall₂ (fun x n => 0 < n ↔ x.2.size ≠ 0 ∧ 0 < (Exact.market s x.1).mark)
      s.positions t.heldNotionals := by
  obtain rfl := perpTotals_eq_ok done
  simp only [PerpTotals.sums, List.nil_append]
  rw [List.forall₂_map_right_iff, List.forall₂_same]
  exact fun x _ => Exact.held_pos_iff

/-- Of an accepted account, the notional of a position is positive exactly if the position holds
something and its market, which is there, has a positive mark. A check finds exposure exactly if some
position with a size or orders has a positive mark, or some borrow a positive notional; then it weighs
a budget against a requirement, and otherwise it passes whatever the account has lost. -/
theorem hasExposure_iff_of_accepted (s : Snapshot) (kind : FractionKind) (collateral : Int)
    (required : Requirements) (o : FractionOutcome) (accepted : s.violations = [])
    (done : s.evaluate kind collateral required = .ok o) :
    (∃ t, s.perpTotals collateral kind.factors = .ok t ∧
      List.Forall₂ (fun x n => 0 < n ↔ x.2.size ≠ 0 ∧ 0 < (Exact.market s x.1).mark)
        s.positions t.heldNotionals) ∧
    (∀ x ∈ s.positions, s.marketAt x.1 = .ok (Exact.market s x.1)) ∧
    (o.hasExposure = true ↔
      (∃ x ∈ s.positions, x.2.Open ∧ 0 < (Exact.market s x.1).mark) ∨
      ∃ x ∈ Exact.borrows s, 0 < Exact.borrowed s (Exact.realized s) x.1 x.2) ∧
    (o.hasExposure = true → o.budget = Exact.budget s kind collateral ∧
      o.requirement = Exact.requirement s kind required ∧
      o.passed = decide (o.requirement < o.budget)) ∧
    (o.hasExposure = false → o = { kind, passed := true }) := by
  obtain ⟨t, folded, _⟩ := bind_eq_ok.mp done
  have marked := (evaluate_eq_ok done).2.1
  rw [← Exact.exposed_iff_of_accepted accepted]
  refine ⟨⟨t, folded, heldNotionals_pos folded⟩, fun x member => (marked x member).found, ?_⟩
  by_cases exposed : Exact.Exposed s
  · rw [evaluate_exposed done exposed]
    simp [exposed]
  · rw [evaluate_unexposed done exposed]
    simp [exposed]

theorem hasExposure_iff_of_accepted_sample : ∃ o : FractionOutcome,
    sample.violations = [] ∧ sample.evaluate .maintenance 60 {} = .ok o ∧ o.hasExposure = true := by
  have accepted : sample.violations = [] := by decide
  have done : sample.evaluate .maintenance 60 {} =
    .ok ⟨.maintenance, true, true, 99000, 24870⟩ := by cbv
  obtain ⟨_, _, exposed, _⟩ := hasExposure_iff_of_accepted sample .maintenance 60 {} _ accepted done
  have held : (0, ({
      key := 1 :: List.replicate 31 0, size := 3, quoteTotal := -95, realized := 30
      bids := 5, asks := 1, funding := 7 } : Position)) ∈ sample.positions :=
    mem_positions.mpr ⟨by decide, rfl⟩
  exact ⟨_, accepted, done, exposed.mpr (.inl ⟨_, held, .inl (by decide), by decide⟩)⟩

/-- An account that bought ten units for more than it has, at the given mark. -/
def leveraged (mark : Int) : Snapshot where
  account := {
    balances := [5000000000000]
    positions := [some { key := 1 :: List.replicate 31 0, size := 10, quoteTotal := -1000 }] }
  collaterals := [some ⟨"usd", "USD", 1000, 0⟩]
  markets := [some ⟨"A", 0, 100⟩]
  accruals := [{}]
  prices := ⟨[⟨"USD", 1000000000000⟩]⟩
  marks := [mark]
  fundings := [0]
  collateralCount := 1
  marketCount := 1

/-- At a mark of zero the position counts for nothing, and its account passes. -/
theorem not_exposed_of_size :
    ¬ ∀ (s : Snapshot) (kind : FractionKind) (collateral : Int) (required : Requirements)
      (o : FractionOutcome), s.violations = [] → s.evaluate kind collateral required = .ok o →
      ∀ x ∈ s.positions, x.2.size ≠ 0 →
        0 < Exact.held x.2 (Exact.market s x.1).mark ∧ o.hasExposure = true := by
  intro exposed
  have held : (0, ({ key := 1 :: List.replicate 31 0, size := 10, quoteTotal := -1000 } : Position)) ∈
      (leveraged 0).positions := mem_positions.mpr ⟨by decide, rfl⟩
  have counted := exposed (leveraged 0) .maintenance 5 {} { kind := .maintenance, passed := true }
    (by decide) (by cbv) _ held (by decide)
  exact absurd counted.2 (by decide)

end Snapshot
end Solvency
