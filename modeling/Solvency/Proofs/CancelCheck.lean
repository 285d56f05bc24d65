import Solvency.Proofs.Dominance
import Solvency.Proofs.FactorChoices

/-! The cancel check. It repeats the initial check with smaller factors, so that nothing it weighs can be
out of range for an accepted account that has an initial outcome. What may be out of range is the product
that a cancel factor is formed from: a base factor is accepted in the range of factors, five times the
base factor is held to the same range. -/
namespace Solvency

namespace FractionKind

variable {kind : FractionKind} {perp : PerpTotals} {spot : BorrowTotals} {collateral r b : Int}

/-- What an exposed account has to have for an outcome. -/
theorem outcome_returns (weighed : Factor.dot (kind.weighed perp spot).1
      (kind.weighed perp spot).2 = .ok r) (allowed : kind.budget perp collateral = .ok b) :
    ∃ o, kind.outcome perp spot collateral = .ok o := by
  unfold outcome
  split
  · exact ⟨_, bind_eq_ok.mpr ⟨r, weighed, bind_eq_ok.mpr ⟨b, allowed, rfl⟩⟩⟩
  · exact ⟨_, rfl⟩

end FractionKind

namespace Snapshot

variable {s : Snapshot} {collateral : Int} {required : Requirements} {o : FractionOutcome}

/-- The cancel check compares no more than the initial check, with the same budget. -/
theorem outcome_cancel (accepted : s.violations = [])
    (marks : ∀ x ∈ s.positions, 0 ≤ (Exact.market s x.1).mark)
    (done : s.evaluate .initial collateral required = .ok o) :
    ∃ o', FractionKind.outcome .cancel (PerpTotals.exact s collateral .cancel)
      (BorrowTotals.exact s .cancel required) collateral = .ok o' := by
  by_cases exposed : Exact.Exposed s
  · have marked := (evaluate_eq_ok done).2.1
    obtain ⟨⟨_, fits⟩, allowed, _⟩ := formed_of_evaluate done exposed
    have weighed := Exact.weighed_nonneg .cancel accepted marks marked
    have charged (x) (member : x ∈ Exact.borrows s) :=
      (chargeable_of_evaluate accepted done x member).charge_nonneg
    have less : Exact.requirement s .cancel required ≤ Exact.requirement s .initial required :=
      Exact.requirement_cancel_le marks accepted marked
    exact FractionKind.outcome_returns
      (FractionKind.dot_weighed_of_nonneg rfl weighed charged (less.trans fits)) allowed
  · rw [FractionKind.outcome, if_neg (by rwa [FractionKind.exposure_exact])]
    exact ⟨_, rfl⟩

/-- An initial outcome leaves the cancel check one way to fail: with a cancel factor. -/
theorem cancel_ends (accepted : s.violations = [])
    (marks : ∀ x ∈ s.positions, 0 ≤ (Exact.market s x.1).mark)
    (done : s.evaluate .initial collateral required = .ok o) :
    Ends (fun f => ∃ x ∈ s.positions,
        Factor.CancelOverflow (Exact.market s x.1).terms.baseFactor f)
      (fun _ => True) (s.evaluate .cancel collateral required) := by
  obtain ⟨o', compared⟩ := outcome_cancel accepted marks done
  obtain ⟨perp, folded, rest⟩ := bind_eq_ok.mp done
  obtain ⟨spot, borrowed, _⟩ := bind_eq_ok.mp rest
  have along := (perpTotals_along folded .cancel).faults fun f fault => fault.2
  refine along.run.bind fun perp' ⟨folded', level⟩ => ?_
  have borrowed' : s.borrowTotals perp'.realized .cancel required = .ok spot := by
    rw [level.realized, borrowTotals_cancel]
    exact borrowed
  obtain ⟨rfl, rfl⟩ := totals_exact folded' borrowed'
  rw [FractionKind.factors, borrowed', ok_bind, compared]
  trivial

theorem scaled_of_perpTotals {t : PerpTotals} (done : s.perpTotals collateral .cancel = .ok t) :
    ∀ x ∈ s.positions, (Exact.market s x.1).terms.baseFactor * 5 ≤ Width.u16.hi :=
  forall_of_perpTotals
    (fun _ _ _ _ added => ((PerpTotals.add_along ⟨rfl, rfl⟩ added .cancel).result added).2 rfl) done

/-- An accepted account with an initial outcome has a cancel outcome if no market of an active position
has a base factor of more than a fifth of the range of factors. Otherwise the fivefold of one that is
larger is out of range. -/
theorem evaluate_cancel_returns_iff (s : Snapshot) (collateral : Int) (required : Requirements)
    (o : FractionOutcome) (accepted : s.violations = [])
    (marks : ∀ mark ∈ s.marks.take s.marketCount.toNat, 0 ≤ mark)
    (done : s.evaluate .initial collateral required = .ok o) :
    ((∃ o', s.evaluate .cancel collateral required = .ok o') ↔
      ∀ x ∈ s.positions, (Exact.market s x.1).terms.baseFactor * 5 ≤ Width.u16.hi) ∧
    ∀ f, s.evaluate .cancel collateral required = .error f →
      ∃ x ∈ s.positions, Width.u16.hi < (Exact.market s x.1).terms.baseFactor * 5 ∧
        f = .margin (.overflow .u16 ((Exact.market s x.1).terms.baseFactor * 5)) := by
  have markets : ∀ x ∈ s.positions, 0 ≤ (Exact.market s x.1).mark :=
    fun _ member => mark_nonneg member marks
  have ends := cancel_ends accepted markets done
  refine ⟨⟨?_, fun fits => ?_⟩, fun f => ends.fault⟩
  · rintro ⟨o', cancelled⟩
    obtain ⟨_, folded, _⟩ := bind_eq_ok.mp cancelled
    exact scaled_of_perpTotals folded
  · cases ended : s.evaluate .cancel collateral required with
    | ok o' => exact ⟨o', rfl⟩
    | error f =>
      obtain ⟨x, member, large, _⟩ := ends.fault ended
      exact absurd (fits x member) large.not_ge

theorem evaluate_cancel_returns_iff_sample : sample.violations = [] ∧
    (∀ mark ∈ sample.marks.take sample.marketCount.toNat, 0 ≤ mark) ∧
    sample.evaluate .initial 60 {} = .ok ⟨.initial, false, true, 80000, 92934⟩ ∧
    ∃ o, sample.evaluate .cancel 60 {} = .ok o := by
  have accepted : sample.violations = [] := by decide
  have marks : ∀ mark ∈ sample.marks.take sample.marketCount.toNat, 0 ≤ mark := by decide
  have done : sample.evaluate .initial 60 {} = .ok ⟨.initial, false, true, 80000, 92934⟩ := by cbv
  have fits : ∀ x ∈ sample.positions,
      (Exact.market sample x.1).terms.baseFactor * 5 ≤ Width.u16.hi := by decide
  exact ⟨accepted, marks, done,
    (evaluate_cancel_returns_iff sample 60 {} _ accepted marks done).1.mpr fits⟩

/-- An account with one position, in a market with the least base factor that is too large. -/
def steep : Snapshot where
  account := {
    balances := [100000000000000]
    positions := [some { key := 1 :: List.replicate 31 0, size := 1, quoteTotal := -1 }] }
  collaterals := [some ⟨"usd", "USD", 1000, 0⟩]
  markets := [some ⟨"A", 0, 13108⟩]
  accruals := [{}]
  prices := ⟨[⟨"USD", 1000000000000⟩]⟩
  marks := [1000000000000]
  fundings := [0]
  collateralCount := 1
  marketCount := 1

theorem not_evaluate_cancel_returns :
    ¬ ∀ (s : Snapshot) (collateral : Int) (required : Requirements) (o : FractionOutcome),
      s.violations = [] → (∀ mark ∈ s.marks.take s.marketCount.toNat, 0 ≤ mark) →
      s.evaluate .initial collateral required = .ok o →
      ∃ o', s.evaluate .cancel collateral required = .ok o' := by
  intro returns
  have done : steep.evaluate .initial 100 {} = .ok ⟨.initial, true, true, 100000, 13108⟩ := rfl
  obtain ⟨o', cancelled⟩ := returns steep 100 {} _ (by decide) (by decide) done
  obtain ⟨_, folded, _⟩ := bind_eq_ok.mp cancelled
  have held : (0, ({ key := 1 :: List.replicate 31 0, size := 1, quoteTotal := -1 } : Position)) ∈
      steep.positions := mem_positions.mpr ⟨by decide, rfl⟩
  exact absurd (scaled_of_perpTotals folded _ held) (by decide)

end Snapshot
end Solvency
