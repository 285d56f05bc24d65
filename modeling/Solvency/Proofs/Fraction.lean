import Mathlib.Tactic
import Solvency.Proofs.Borrow
import Solvency.Proofs.Perpetual

/-! The check of a fraction. Its factors and notionals are built apart and concatenated; they still
pair every factor with the notional of its own position or borrow. -/
namespace Solvency

section Append

variable {α β : Type} {xs : List α} {ys : List β} {f f' : α → Int} {g g' : β → Int}

theorem zip_append_map : (xs.map f ++ ys.map g).zip (xs.map f' ++ ys.map g') =
    xs.map (fun x => (f x, f' x)) ++ ys.map fun y => (g y, g' y) := by
  rw [List.zip_append (by simp), List.zip_map', List.zip_map']

theorem sum_zip_append : (((xs.map f ++ ys.map g).zip (xs.map f' ++ ys.map g')).map
      fun t => t.1 * t.2).sum =
    (xs.map fun x => f x * f' x).sum + (ys.map fun y => g y * g' y).sum := by
  rw [zip_append_map, List.map_append, List.sum_append, List.map_map, List.map_map]
  rfl

/-- The weighted sum of two concatenated vectors is the sum over both parts. -/
theorem Factor.dot_append {r : Int}
    (done : dot (xs.map f ++ ys.map g) (xs.map f' ++ ys.map g') = .ok r) :
    r = (xs.map fun x => f x * f' x).sum + (ys.map fun y => g y * g' y).sum := by
  rw [dot_eq_ok done, sum_zip_append]

/-- Without negative terms it is formed wherever its value is in range. -/
theorem Factor.dot_append_of_nonneg (left : ∀ x ∈ xs, 0 ≤ f x * f' x)
    (right : ∀ y ∈ ys, 0 ≤ g y * g' y)
    (fits : (xs.map fun x => f x * f' x).sum + (ys.map fun y => g y * g' y).sum ≤ Width.i64.hi) :
    dot (xs.map f ++ ys.map g) (xs.map f' ++ ys.map g') =
      .ok ((xs.map fun x => f x * f' x).sum + (ys.map fun y => g y * g' y).sum) := by
  rw [← sum_zip_append] at fits ⊢
  refine dot_of_nonneg (by simp) ?_ fits
  rw [zip_append_map]
  simpa [or_imp, forall_and] using ⟨left, right⟩

end Append

/-- The totals of the positions and of the borrows, as a check aggregates them. -/
def PerpTotals.exact (s : Snapshot) (collateral : Int) (wanted : FactorChoice) : PerpTotals :=
  PerpTotals.sums s wanted { accountValue := collateral } s.positions

def BorrowTotals.exact (s : Snapshot) (wanted : FactorChoice) (required : Requirements) :
    BorrowTotals :=
  BorrowTotals.sums s (Exact.realized s) wanted required {} (Exact.borrows s)

/-- The choice produces the factors that a fraction weighs. -/
def FactorChoice.serves (wanted : FactorChoice) : FractionKind → Bool
  | .initial => wanted.hasInitial
  | .maintenance => wanted.hasMaintenance
  | .cancel => wanted.hasCancel

namespace FractionKind

variable {s : Snapshot} {kind : FractionKind} {wanted : FactorChoice} {collateral r : Int}
  {required : Requirements}

theorem factors_serves (kind : FractionKind) : kind.factors.serves kind = true := by
  cases kind <;> rfl

theorem exposure_exact (s : Snapshot) (collateral : Int) (wanted : FactorChoice)
    (required : Requirements) :
    ((PerpTotals.exact s collateral wanted).hasExposure ||
      (BorrowTotals.exact s wanted required).hasExposure) = true ↔ Exact.Exposed s := by
  simp [PerpTotals.exact, PerpTotals.sums, BorrowTotals.exact, BorrowTotals.sums, Exact.Exposed]

theorem dot_weighed (serves : wanted.serves kind = true)
    (done : Factor.dot (kind.weighed (PerpTotals.exact s collateral wanted)
      (BorrowTotals.exact s wanted required)).1
      (kind.weighed (PerpTotals.exact s collateral wanted)
      (BorrowTotals.exact s wanted required)).2 = .ok r) :
    r = Exact.requirement s kind required := by
  cases kind
  all_goals
    simp only [FactorChoice.serves] at serves
    simp only [weighed, PerpTotals.exact, PerpTotals.sums, BorrowTotals.exact, BorrowTotals.sums,
      serves, Bool.or_true, Bool.true_or, if_true, List.nil_append] at done
    exact Factor.dot_append done

theorem dot_weighed_of_nonneg (serves : wanted.serves kind = true)
    (weighed : ∀ x ∈ s.positions,
      0 ≤ Exact.marketFactor kind (Exact.market s x.1).terms.baseFactor *
        Exact.notional kind x.2 (Exact.market s x.1).mark)
    (charged : ∀ x ∈ Exact.borrows s,
      0 ≤ Exact.assetFactor kind required (Exact.asset s x.1).terms.weight *
        Exact.borrowed s (Exact.realized s) x.1 x.2)
    (fits : Exact.requirement s kind required ≤ Width.i64.hi) :
    Factor.dot (kind.weighed (PerpTotals.exact s collateral wanted)
      (BorrowTotals.exact s wanted required)).1
      (kind.weighed (PerpTotals.exact s collateral wanted)
      (BorrowTotals.exact s wanted required)).2 = .ok (Exact.requirement s kind required) := by
  cases kind
  all_goals
    simp only [FactorChoice.serves] at serves
    simp only [FractionKind.weighed, PerpTotals.exact, PerpTotals.sums, BorrowTotals.exact,
      BorrowTotals.sums, serves, Bool.or_true, Bool.true_or, if_true, List.nil_append]
    exact Factor.dot_append_of_nonneg weighed charged fits

theorem budget_exact
    (done : kind.budget (PerpTotals.exact s collateral wanted) collateral = .ok r) :
    r = Exact.budget s kind collateral := by
  cases kind
  case maintenance =>
    exact (Width.mul_eq_ok.mp done).2
  all_goals
    simp only [budget, bind_eq_ok, Width.add_eq_ok, Width.mul_eq_ok] at done
    obtain ⟨_, ⟨_, rfl⟩, _, rfl⟩ := done
    simp [PerpTotals.exact, PerpTotals.sums, Exact.budget, Exact.accountValue, Exact.realized]

end FractionKind

namespace Snapshot

variable {s : Snapshot} {kind : FractionKind} {collateral : Int} {required : Requirements}
  {o : FractionOutcome}

/-- The two folds in a row give the exact totals; the second takes what the first has realized. -/
theorem totals_exact {wanted : FactorChoice} {perp : PerpTotals} {spot : BorrowTotals}
    (folded : s.perpTotals collateral wanted = .ok perp)
    (borrowed : s.borrowTotals perp.realized wanted required = .ok spot) :
    perp = PerpTotals.exact s collateral wanted ∧ spot = BorrowTotals.exact s wanted required := by
  obtain rfl := perpTotals_eq_ok folded
  refine ⟨rfl, ?_⟩
  rw [borrowTotals_eq_ok borrowed, BorrowTotals.exact]
  simp [PerpTotals.sums, Exact.realized]

/-- A check that succeeds has aggregated the exact totals, and has found all they need. -/
theorem evaluate_eq_ok (done : s.evaluate kind collateral required = .ok o) :
    kind.outcome (PerpTotals.exact s collateral kind.factors)
      (BorrowTotals.exact s kind.factors required) collateral = .ok o ∧
    (∀ x ∈ s.positions, Exact.Marked s x.1 x.2) ∧ ∀ x ∈ Exact.borrows s, Exact.Priced s x.1 := by
  obtain ⟨perp, folded, done⟩ := bind_eq_ok.mp done
  obtain ⟨spot, borrowed, done⟩ := bind_eq_ok.mp done
  have marked := marked_of_perpTotals folded
  have priced := priced_of_borrowTotals borrowed
  obtain ⟨rfl, rfl⟩ := totals_exact folded borrowed
  exact ⟨done, marked, priced⟩

/-- Without exposure a check passes. -/
theorem evaluate_unexposed (done : s.evaluate kind collateral required = .ok o)
    (unexposed : ¬ Exact.Exposed s) : o = { kind, passed := true } := by
  have outcome := (evaluate_eq_ok done).1
  rw [FractionKind.outcome, if_neg (by rwa [FractionKind.exposure_exact])] at outcome
  exact (Except.ok.inj outcome).symm

/-- With exposure a check that succeeds has formed both amounts, and passes if the budget exceeds the
requirement. -/
theorem formed_of_evaluate (done : s.evaluate kind collateral required = .ok o)
    (exposed : Exact.Exposed s) : Width.i64.Holds (Exact.requirement s kind required) ∧
      kind.budget (PerpTotals.exact s collateral kind.factors) collateral =
        .ok (Exact.budget s kind collateral) ∧ o = {
      kind
      passed := decide (Exact.requirement s kind required < Exact.budget s kind collateral)
      hasExposure := true
      budget := Exact.budget s kind collateral
      requirement := Exact.requirement s kind required } := by
  have outcome := (evaluate_eq_ok done).1
  rw [FractionKind.outcome, if_pos (by rwa [FractionKind.exposure_exact])] at outcome
  obtain ⟨requirement, weighed, outcome⟩ := bind_eq_ok.mp outcome
  obtain ⟨budget, allowed, made⟩ := bind_eq_ok.mp outcome
  obtain rfl := FractionKind.dot_weighed kind.factors_serves weighed
  obtain rfl := FractionKind.budget_exact allowed
  exact ⟨Factor.dot_holds weighed, allowed, (Except.ok.inj made).symm⟩

theorem evaluate_exposed (done : s.evaluate kind collateral required = .ok o)
    (exposed : Exact.Exposed s) : o = {
      kind
      passed := decide (Exact.requirement s kind required < Exact.budget s kind collateral)
      hasExposure := true
      budget := Exact.budget s kind collateral
      requirement := Exact.requirement s kind required } := (formed_of_evaluate done exposed).2.2

/-- A check that succeeds gives the exact outcome: totals over all active positions and borrows, every
amount rounded once, every factor with its own notional. No entry that they need is missing. -/
theorem evaluate_exact (s : Snapshot) (kind : FractionKind) (collateral : Int)
    (required : Requirements) (o : FractionOutcome)
    (done : s.evaluate kind collateral required = .ok o) :
    o = Exact.outcome s kind collateral required ∧
    (∀ x ∈ s.positions, Exact.Marked s x.1 x.2) ∧ ∀ x ∈ Exact.borrows s, Exact.Priced s x.1 := by
  refine ⟨?_, (evaluate_eq_ok done).2⟩
  by_cases exposed : Exact.Exposed s
  · rw [evaluate_exposed done exposed, Exact.outcome, if_pos exposed]
  · rw [evaluate_unexposed done exposed, Exact.outcome, if_neg exposed]

/-- A long, a short and a flat position around an empty slot, a deposit, and borrows of two assets, one
of which the positions' profit offsets in part. -/
def sample : Snapshot where
  account := {
    balances := [-50500000000000, 900000000000000, -2000000000000]
    positions := [
      some { key := 1 :: List.replicate 31 0, size := 3, quoteTotal := -95, realized := 30,
             bids := 5, asks := 1, funding := 7 },
      none,
      some { key := 2 :: List.replicate 31 0, size := -4, quoteTotal := 350, realized := -12,
             bids := 2, asks := 6 },
      some { key := 3 :: List.replicate 31 0, realized := 2, bids := 1 }] }
  collaterals := [some ⟨"usd", "USD", 1000, 0⟩, some ⟨"sol", "SOL", 800, 20⟩,
    some ⟨"eth", "ETH", 900, 10⟩]
  markets := [some ⟨"A", 1, 101⟩, none, some ⟨"B", 0, 60⟩, some ⟨"C", 2, 15⟩]
  accruals := [{ borrow := 1010000000000 }, { supply := 1005000000000 }, { borrow := 1020000000000 }]
  prices := ⟨[⟨"ETH", 31300000000000⟩, ⟨"SOL", 2700000000000⟩, ⟨"USD", 1000000000000⟩]⟩
  marks := [33300000000000, 0, 80250000000000, 20500000000000]
  fundings := [12, 0, -3, 1]
  collateralCount := 3
  marketCount := 4

theorem evaluate_exact_sample :
    sample.evaluate .initial 60 {} = .ok ⟨.initial, false, true, 80000, 92934⟩ ∧
    Exact.outcome sample .initial 60 {} = ⟨.initial, false, true, 80000, 92934⟩ := by
  have done : sample.evaluate .initial 60 {} = .ok ⟨.initial, false, true, 80000, 92934⟩ := by cbv
  exact ⟨done, (evaluate_exact _ _ _ _ _ done).1.symm⟩

end Snapshot
end Solvency
