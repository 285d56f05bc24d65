import Solvency.Assessment.Basic
import Solvency.Proofs.Fraction

/-! What of a snapshot reaches a result. Two snapshots that hold the same active account, and answer
alike for the slots that it uses, are told apart by no valuation, no fold and no check. What else
their vectors hold is never read, and of several faults the same one is met first. -/
namespace Solvency

namespace Snapshot

/-- The second snapshot has the same active balances and positions. For every balance other than zero
it answers alike for the collateral slot and for the price of its asset, for every position alike for
the market slot; each answer may be a fault. -/
structure SameReads (s t : Snapshot) : Prop where
  collateralCount : t.collateralCount = s.collateralCount
  marketCount : t.marketCount = s.marketCount
  balances : t.account.balances.take s.collateralCount.toNat =
    s.account.balances.take s.collateralCount.toNat
  positions : t.account.positions.take s.marketCount.toNat =
    s.account.positions.take s.marketCount.toNat
  collaterals : ∀ x ∈ s.balances, x.2 ≠ 0 → t.collateralAt x.1 = s.collateralAt x.1
  prices : ∀ x ∈ s.balances, x.2 ≠ 0 → ∀ c, s.collateralAt x.1 = .ok c →
    t.prices.get? c.terms.feed = s.prices.get? c.terms.feed
  markets : ∀ x ∈ s.positions, t.marketAt x.1 = s.marketAt x.1

variable {s t : Snapshot} (same : s.SameReads t)

include same

theorem balances_sameReads : t.balances = s.balances := by
  unfold Snapshot.balances
  rw [same.collateralCount, same.balances]

theorem positions_sameReads : t.positions = s.positions := by
  unfold Snapshot.positions
  rw [same.marketCount, same.positions]

theorem priceOf_sameReads {x : Nat × Int} {c : CollateralSlot} (member : x ∈ s.balances)
    (nonzero : x.2 ≠ 0) (found : s.collateralAt x.1 = .ok c) :
    t.priceOf c.terms.feed = s.priceOf c.terms.feed := by
  unfold priceOf
  rw [same.prices x member nonzero c found]

theorem balanceValue_sameReads {x : Nat × Int} (weighted : Bool) (member : x ∈ s.balances)
    (nonzero : x.2 ≠ 0) : t.balanceValue weighted x.1 x.2 = s.balanceValue weighted x.1 x.2 := by
  unfold balanceValue
  rw [same.collaterals x member nonzero]
  refine bind_congr_of_ok fun c found => bind_congr_of_ok fun actual _ => ?_
  rw [priceOf_sameReads same member nonzero found]

theorem balanceValues_sameReads (weighted : Bool) :
    t.balanceValues weighted = s.balanceValues weighted := by
  unfold balanceValues
  rw [balances_sameReads same]
  refine mapM_congr_of_mem fun x listed => ?_
  obtain ⟨member, nonzero⟩ := List.mem_filter.mp listed
  simp only [balanceValue_sameReads same weighted member (of_decide_eq_true nonzero)]

theorem totalValue_sameReads (weighted : Bool) : t.totalValue weighted = s.totalValue weighted := by
  unfold totalValue
  rw [balanceValues_sameReads same]

theorem collateral_sameReads : t.collateral = s.collateral := by
  unfold Snapshot.collateral
  rw [totalValue_sameReads same]

theorem perpTotals_sameReads (collateral : Int) (wanted : FactorChoice) :
    t.perpTotals collateral wanted = s.perpTotals collateral wanted := by
  unfold perpTotals
  rw [positions_sameReads same]
  refine bind_congr_of_ok fun _ _ => foldlM_congr_of_mem fun x member totals => ?_
  simp only [same.markets x member]

theorem borrowNotional_sameReads {x : Nat × Int} {c : CollateralSlot} (realized : Int)
    (member : x ∈ s.balances) (nonzero : x.2 ≠ 0) (found : s.collateralAt x.1 = .ok c) :
    t.borrowNotional c realized x.1 x.2 = s.borrowNotional c realized x.1 x.2 := by
  unfold borrowNotional
  rw [priceOf_sameReads same member nonzero found]

theorem borrowTotals_sameReads (realized : Int) (wanted : FactorChoice) (required : Requirements) :
    t.borrowTotals realized wanted required = s.borrowTotals realized wanted required := by
  unfold borrowTotals
  rw [balances_sameReads same]
  refine foldlM_congr_of_mem fun x listed totals => ?_
  obtain ⟨member, owed⟩ := List.mem_filter.mp listed
  have nonzero : x.2 ≠ 0 := (of_decide_eq_true owed).ne
  simp only [same.collaterals x member nonzero]
  refine bind_congr_of_ok fun c found => ?_
  rw [borrowNotional_sameReads same realized member nonzero found]

theorem evaluate_sameReads (kind : FractionKind) (collateral : Int) (required : Requirements) :
    t.evaluate kind collateral required = s.evaluate kind collateral required := by
  unfold evaluate
  simp only [perpTotals_sameReads same, borrowTotals_sameReads same]

theorem largestOrder_sameReads : t.largestOrder = s.largestOrder := by
  unfold largestOrder
  rw [positions_sameReads same]
  refine congrArg (· >>= _) (mapM_congr_of_mem fun x member => ?_)
  simp only [same.markets x member]

/-- Without validation nothing of an assessment differs. -/
theorem assess_sameReads (label : Text) (required : Requirements) :
    t.assess label required false = s.assess label required false := by
  unfold assess
  simp only [collateral_sameReads same, evaluate_sameReads same, totalValue_sameReads same,
    positions_sameReads same, largestOrder_sameReads same, Bool.false_eq_true, if_false]

omit same

/-- Everything that is computed of a snapshot, result or fault, is told by its active account and by
the answers for the slots that this account uses. -/
theorem results_eq_of_sameReads (s t : Snapshot) (same : s.SameReads t) :
    (∀ weighted, t.balanceValues weighted = s.balanceValues weighted) ∧
    t.collateral = s.collateral ∧
    (∀ collateral wanted, t.perpTotals collateral wanted = s.perpTotals collateral wanted) ∧
    (∀ realized wanted required,
      t.borrowTotals realized wanted required = s.borrowTotals realized wanted required) ∧
    (∀ kind collateral required,
      t.evaluate kind collateral required = s.evaluate kind collateral required) ∧
    t.largestOrder = s.largestOrder ∧
    ∀ label required, t.assess label required false = s.assess label required false :=
  ⟨balanceValues_sameReads same, collateral_sameReads same, perpTotals_sameReads same,
    borrowTotals_sameReads same, evaluate_sameReads same, largestOrder_sameReads same,
    assess_sameReads same⟩

/-- The sample account without its deposit. -/
def sparse : Snapshot where
  __ := sample
  account := { sample.account with balances := [-50500000000000, 0, -2000000000000] }

/-- The same account, with no terms or price for the asset it does not hold, other data in the market
it has no position in, and further entries in every vector that validation would refuse. -/
def littered : Snapshot where
  __ := sparse
  account := {
    balances := sparse.account.balances ++ [-1]
    positions := sparse.account.positions ++ [some { key := [], size := 7, bids := -1 }] }
  collaterals := [some ⟨"usd", "USD", 1000, 0⟩, none, some ⟨"eth", "ETH", 900, 10⟩,
    some ⟨"btc", "BTC", 0, -1⟩]
  markets := [some ⟨"A", 1, 101⟩, some ⟨"D", -3, 70000⟩, some ⟨"B", 0, 60⟩, some ⟨"C", 2, 15⟩, none]
  accruals := sparse.accruals ++ [{ supply := -1 }]
  prices := ⟨[⟨"BTC", -1⟩, ⟨"ETH", 31300000000000⟩, ⟨"USD", 1000000000000⟩]⟩
  marks := [33300000000000, -1, 80250000000000, 20500000000000, -1]
  fundings := [12, 5, -3, 1, 5]

theorem littered_sameReads : sparse.SameReads littered where
  collateralCount := rfl
  marketCount := rfl
  balances := rfl
  positions := rfl
  collaterals := by
    show ∀ x ∈ [(0, -50500000000000), (1, 0), (2, -2000000000000)], _
    simp only [List.forall_mem_cons]
    exact ⟨fun _ => rfl, fun nonzero => absurd rfl nonzero, fun _ => rfl, by simp⟩
  prices := by
    show ∀ x ∈ [(0, -50500000000000), (1, 0), (2, -2000000000000)], _
    simp only [List.forall_mem_cons]
    refine ⟨fun _ c found => ?_, fun nonzero => absurd rfl nonzero, fun _ c found => ?_, by simp⟩
    all_goals
      cases found
      cbv
  markets := by
    show ∀ x ∈ [(0, _), (2, _), (3, _)], _
    simp only [List.forall_mem_cons]
    exact ⟨rfl, rfl, rfl, by simp⟩

theorem results_eq_of_sameReads_littered : sparse.SameReads littered ∧
    sparse.evaluate .initial 60 {} = .ok ⟨.initial, false, true, 80000, 92934⟩ ∧
    littered.evaluate .initial 60 {} = .ok ⟨.initial, false, true, 80000, 92934⟩ ∧
    sparse.violations = [] ∧ littered.violations ≠ [] := by
  have done : sparse.evaluate .initial 60 {} = .ok ⟨.initial, false, true, 80000, 92934⟩ := by cbv
  obtain ⟨_, _, _, _, evaluated, _⟩ := results_eq_of_sameReads sparse littered littered_sameReads
  exact ⟨littered_sameReads, done, (evaluated _ _ _).trans done, by decide, by decide⟩

end Snapshot
end Solvency
