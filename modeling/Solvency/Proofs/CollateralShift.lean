import Solvency.Proofs.Fraction

/-! Weighted collateral beside the outcome of a check. It is the first account value, and a bound of
the budget once more; both move along with it, and what is required does not. So a check allows the
collateral and a surplus that the collateral has no part in, and an exposed account passes exactly
above one threshold. -/
namespace Solvency

namespace Exact

/-- What a fraction allows beside the collateral. -/
def surplus (s : Snapshot) (kind : FractionKind) : Int :=
  match kind with
  | .maintenance => accountValue s 0
  | _ => min (accountValue s 0) (realized s)

/-- What the collateral of an exposed account, in permille, has to exceed. -/
def threshold (s : Snapshot) (kind : FractionKind) (required : Requirements) : Int :=
  requirement s kind required - oneWhole * surplus s kind

theorem accountValue_eq_add (s : Snapshot) (collateral : Int) :
    accountValue s collateral = collateral + accountValue s 0 := by simp [accountValue]

/-- Both bounds of an open budget move with the collateral, so their minimum does. -/
theorem budget_eq_surplus (s : Snapshot) (kind : FractionKind) (collateral : Int) :
    budget s kind collateral = oneWhole * (collateral + surplus s kind) := by
  cases kind
  case maintenance =>
    rw [budget, accountValue_eq_add, surplus, mul_comm]
  all_goals
    show min (accountValue s collateral) (collateral + realized s) * oneWhole =
      oneWhole * (collateral + min (accountValue s 0) (realized s))
    rw [accountValue_eq_add, min_add_add_left, mul_comm]

theorem requirement_lt_budget_iff (s : Snapshot) (kind : FractionKind) (required : Requirements)
    (collateral : Int) : requirement s kind required < budget s kind collateral ↔
      threshold s kind required < oneWhole * collateral := by
  rw [budget_eq_surplus, mul_add, threshold, sub_lt_iff_lt_add]

end Exact

namespace Snapshot

/-- Exposure and requirement are the same for every collateral, and the budget of an exposed account
moves with it one for one. Such an account passes for collateral above its threshold and for no other;
at the threshold the budget is just the requirement, and the account fails. -/
theorem evaluate_shifted (s : Snapshot) (kind : FractionKind) (required : Requirements) :
    (∀ (c c' : Int) (o o' : FractionOutcome), s.evaluate kind c required = .ok o →
      s.evaluate kind c' required = .ok o' →
      o'.hasExposure = o.hasExposure ∧ o'.requirement = o.requirement ∧
      (o.hasExposure = true → o'.budget - o.budget = oneWhole * (c' - c))) ∧
    ∀ (c : Int) (o : FractionOutcome), s.evaluate kind c required = .ok o → o.hasExposure = true →
      (o.passed = true ↔ Exact.threshold s kind required < oneWhole * c) ∧
      (oneWhole * c = Exact.threshold s kind required →
        o.budget = o.requirement ∧ o.passed = false) := by
  constructor
  · intro c c' o o' done done'
    by_cases exposed : Exact.Exposed s
    · rw [evaluate_exposed done exposed, evaluate_exposed done' exposed]
      refine ⟨rfl, rfl, fun _ => ?_⟩
      simp only [Exact.budget_eq_surplus]
      ring
    · rw [evaluate_unexposed done exposed, evaluate_unexposed done' exposed]
      simp
  · intro c o done found
    have exposed : Exact.Exposed s := by
      by_contra unexposed
      rw [evaluate_unexposed done unexposed] at found
      contradiction
    obtain rfl := evaluate_exposed done exposed
    have judged := Exact.requirement_lt_budget_iff s kind required c
    refine ⟨decide_eq_true_iff.trans judged, fun level => ⟨?_, ?_⟩⟩
    · rw [Exact.budget_eq_surplus, mul_add, level, Exact.threshold, sub_add_cancel]
    · exact decide_eq_false (mt judged.mp level.not_gt)

/-- The threshold of the sample account lies between 72 and 73. -/
theorem evaluate_shifted_sample :
    sample.evaluate .initial 60 {} = .ok ⟨.initial, false, true, 80000, 92934⟩ ∧
    Exact.threshold sample .initial {} = 72934 ∧
    ∃ o, sample.evaluate .initial 73 {} = .ok o ∧ o.passed = true ∧
      o.requirement = 92934 ∧ o.budget - 80000 = oneWhole * (73 - 60) := by
  have below : sample.evaluate .initial 60 {} = .ok ⟨.initial, false, true, 80000, 92934⟩ := by cbv
  have above : sample.evaluate .initial 73 {} = .ok ⟨.initial, true, true, 93000, 92934⟩ := by cbv
  have threshold : Exact.threshold sample .initial {} = 72934 := by decide +kernel
  obtain ⟨shifts, passes⟩ := evaluate_shifted sample .initial {}
  obtain ⟨_, requirement, budget⟩ := shifts 60 73 _ _ below above
  have passed := (passes 73 _ above rfl).1.mpr (by rw [threshold]; decide)
  exact ⟨below, threshold, _, above, passed, requirement, budget rfl⟩

end Snapshot
end Solvency
