import Solvency.Proofs.Levels
import Solvency.Proofs.SeizureSize

/-! Sizing of seizures beside the initial check. Both weigh the same notionals, but the budget that a
seizure is sized by leaves out realized profit and counts negative collateral as none, and sizing
does not pass accounts without exposure. -/
namespace Solvency

/-- Nothing suffices exactly if there is no shortfall. -/
theorem Exact.eq_zero_iff_of_isLeast {u : SeizedUnit} {shortfall q : Int}
    (least : IsLeast (sufficient u shortfall) q) : q = 0 ↔ shortfall ≤ 0 := by
  constructor
  · rintro rfl
    have scaled : shortfall * Fixed.scale ≤ 0 := by simpa using least.1.2
    exact nonpos_of_mul_nonpos_left scaled Fixed.scale_pos
  · intro nonpos
    have scaled := mul_nonpos_of_nonpos_of_nonneg nonpos Fixed.scale_pos.le
    have nothing : 0 ∈ sufficient u shortfall := ⟨le_rfl, by simpa using scaled⟩
    exact le_antisymm (least.2 nothing) least.1.1

namespace Snapshot

variable {s : Snapshot}

/-- Nothing is seized exactly if the budget of the sizing covers the requirement. -/
theorem seizable_eq_zero_iff {u : SeizedUnit} {collateral q : Int} {required : Requirements}
    (done : s.seizable u collateral required = .ok q) : q = 0 ↔
      Exact.requirement s .initial required ≤
        min (max collateral 0) (Exact.accountValue s collateral) * oneWhole := by
  rw [Exact.eq_zero_iff_of_isLeast (seizable_isLeast done).2, Exact.shortfall, sub_nonpos, mul_comm]

/-- The quantity of a seizure is sized with the account's own weighted collateral. -/
theorem seizure_eq_ok {asset quote : Int} {fudge : Option Int} {required : Requirements}
    {q : Seizure} (done : s.seizure asset quote fudge required = .ok q) :
    ∃ u collateral, s.collateral = .ok collateral ∧
      s.seizable u collateral required = .ok q.quantity := by
  obtain ⟨_, _, _, _, collateral, _, _, _, _, valued, sized, _⟩ := seizure_sized done
  exact ⟨_, collateral, valued, sized⟩

/-- Without exposure there is nothing to weigh. -/
theorem requirement_unexposed {required : Requirements} (accepted : s.violations = [])
    (marks : ∀ mark ∈ s.marks.take s.marketCount.toNat, 0 ≤ mark)
    (unexposed : ¬ Exact.Exposed s) : Exact.requirement s .initial required = 0 := by
  obtain ⟨positions, borrows⟩ := not_or.mp unexposed
  have filled : ∀ x ∈ s.positions, Exact.filled x.2 (Exact.market s x.1).mark = 0 := by
    intro x member
    obtain ⟨bids, _, asks, _⟩ := orders_of_accepted accepted member
    have nonneg := Exact.filled_nonneg bids asks (mark_nonneg member marks)
    have nonpos := not_lt.mp fun positive => positions ⟨x, member, positive⟩
    omega
  have borrowed : ∀ x ∈ Exact.borrows s,
      Exact.borrowed s (Exact.realized s) x.1 x.2 = 0 := by
    intro x member
    have nonneg : 0 ≤ Exact.borrowed s (Exact.realized s) x.1 x.2 := le_max_left _ _
    have nonpos := not_lt.mp fun positive => borrows ⟨x, member, positive⟩
    omega
  exact Exact.requirement_eq_zero filled borrowed

/-- Nothing is seized exactly if the requirement fits a budget that counts weighted collateral, at
least zero, up to the account value. The check counts what positions have realized on top, so sizing
is never laxer than the check after a profit, and never stricter after a loss that collateral
covers. Without exposure the account value alone decides. -/
theorem seizure_eq_zero_iff (s : Snapshot) (required : Requirements) (asset quote : Int)
    (fudge : Option Int) (collateral : Int) (q : Seizure) (o : FractionOutcome)
    (accepted : s.violations = []) (valued : s.collateral = .ok collateral)
    (sized : s.seizure asset quote fudge required = .ok q)
    (checked : s.evaluate .initial collateral required = .ok o) :
    (q.quantity = 0 ↔ Exact.requirement s .initial required ≤
      min (max collateral 0) (Exact.accountValue s collateral) * oneWhole) ∧
    (o.hasExposure = true →
      o.requirement = Exact.requirement s .initial required ∧
      o.budget =
        min (Exact.accountValue s collateral) (collateral + Exact.realized s) * oneWhole ∧
      (max collateral 0 ≤ collateral + Exact.realized s →
        q.quantity = 0 → o.requirement ≤ o.budget) ∧
      (collateral + Exact.realized s ≤ max collateral 0 →
        o.requirement ≤ o.budget → q.quantity = 0)) ∧
    (o.hasExposure = false → (∀ mark ∈ s.marks.take s.marketCount.toNat, 0 ≤ mark) →
      (q.quantity = 0 ↔ 0 ≤ Exact.accountValue s collateral)) := by
  obtain ⟨u, own, found, seized⟩ := seizure_eq_ok sized
  obtain rfl : own = collateral := Except.ok.inj (found.symm.trans valued)
  have zero := seizable_eq_zero_iff seized
  by_cases exposed : Exact.Exposed s
  · obtain rfl := evaluate_exposed checked exposed
    refine ⟨zero, fun _ => ⟨rfl, rfl, fun le => ?_, fun le => ?_⟩, by simp⟩
    · simp only [zero, Exact.budget, oneWhole]
      omega
    · simp only [zero, Exact.budget, oneWhole]
      omega
  · obtain rfl := evaluate_unexposed checked exposed
    refine ⟨zero, by simp, fun _ marks => ?_⟩
    rw [zero, requirement_unexposed accepted marks exposed, oneWhole]
    omega

/-- A deposit against ten borrowed units worth twenty each, and one unit of a market, which has no
factor, with the given realized and unrealized profit. -/
def borrower (deposit realized unrealized : Int) : Snapshot where
  account := {
    balances := [deposit * Fixed.scale, -10 * Fixed.scale]
    positions := [some { key := 1 :: List.replicate 31 0, size := 1,
                         quoteTotal := unrealized - 100, realized }] }
  collaterals := [some ⟨"usd", "USD", 1000, 0⟩, some ⟨"sol", "SOL", 800, 0⟩]
  markets := [some ⟨"A", 0, 0⟩]
  accruals := [{}, {}]
  prices := ⟨[⟨"SOL", 20 * Fixed.scale⟩, ⟨"USD", Fixed.scale⟩]⟩
  marks := [100 * Fixed.scale]
  fundings := [0]
  collateralCount := 2
  marketCount := 1

/-- After a loss nothing is seized from an account that is short of its initial margin. -/
theorem seizure_eq_zero_iff_loss :
    (borrower 275 (-30) 30).violations = [] ∧ (borrower 275 (-30) 30).collateral = .ok 75 ∧
    (borrower 275 (-30) 30).seizure 1 0 none {} = .ok ⟨0, 0⟩ ∧
    (borrower 275 (-30) 30).evaluate .initial 75 {} =
      .ok ⟨.initial, false, true, 45000, 75000⟩ ∧
    Exact.requirement (borrower 275 (-30) 30) .initial {} ≤
      min (max 75 0) (Exact.accountValue (borrower 275 (-30) 30) 75) * oneWhole := by
  have accepted : (borrower 275 (-30) 30).violations = [] := by decide
  have valued : (borrower 275 (-30) 30).collateral = .ok 75 := by cbv
  have sized : (borrower 275 (-30) 30).seizure 1 0 none {} = .ok ⟨0, 0⟩ := by cbv
  have checked : (borrower 275 (-30) 30).evaluate .initial 75 {} =
    .ok ⟨.initial, false, true, 45000, 75000⟩ := by cbv
  obtain ⟨zero, _, _⟩ := seizure_eq_zero_iff _ {} 1 0 none 75 _ _ accepted valued sized checked
  exact ⟨accepted, valued, sized, checked, zero.mp rfl⟩

/-- Sizing does not agree with the initial check: after a profit an account that passes is sized. -/
theorem seizure_not_check :
    ¬ ∀ (s : Snapshot) (required : Requirements) (asset quote : Int) (fudge : Option Int)
      (collateral : Int) (q : Seizure) (o : FractionOutcome),
      s.violations = [] → s.collateral = .ok collateral →
      s.seizure asset quote fudge required = .ok q →
      s.evaluate .initial collateral required = .ok o →
      (q.quantity = 0 ↔ o.hasExposure = false ∨ o.requirement ≤ o.budget) := by
  intro agree
  have sized := agree (borrower 250 30 0) {} 1 0 none 50 ⟨4, 80⟩
    ⟨.initial, true, true, 80000, 75000⟩ (by decide) (by cbv) (by cbv) (by cbv)
  exact absurd sized (by decide)

end Snapshot
end Solvency
