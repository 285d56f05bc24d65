import Solvency.Proofs.Slots
import Solvency.Validity.Check

/-! What validation establishes. A snapshot without violations satisfies every invariant, hence each
active slot that a position or a balance refers to lies in its ranges. -/
namespace Solvency.Snapshot

variable {s : Snapshot} {i j : Nat} {p : Position} {raw : Int}

theorem satisfies_of_accepted (accepted : s.violations = []) (i : Invariant) :
    s.satisfies i = true := by
  have listed : i ∈ Invariant.all := by cases i <;> decide
  have none_violated := List.filter_eq_nil_iff.mp accepted i listed
  simpa using none_violated

theorem firstSlots_of_nonneg {α : Type} (slots : List α) {count : Int} (nonneg : 0 ≤ count) :
    firstSlots slots count = slots.take count.toNat := if_pos nonneg

theorem mem_firstSlots {α : Type} {slots : List α} {count : Int} {a : α} (nonneg : 0 ≤ count)
    (active : (i : Int) < count) (found : slots[i]? = some a) : a ∈ firstSlots slots count := by
  rw [firstSlots_of_nonneg slots nonneg]
  refine List.mem_of_getElem? (i := i) ?_
  rw [List.getElem?_take, if_pos (by omega), found]

theorem counts_of_accepted (accepted : s.violations = []) :
    0 ≤ s.collateralCount ∧ s.collateralCount ≤ collateralCapacity ∧
    0 ≤ s.marketCount ∧ s.marketCount ≤ marketCapacity := by
  have counts := satisfies_of_accepted accepted .activeCountsWithinCapacity
  simpa [satisfies, and_assoc] using counts

/-- Every active collateral slot has its entries. -/
theorem collateral_vectors_of_accepted (accepted : s.violations = []) :
    s.collateralCount ≤ s.collaterals.length ∧ s.collateralCount ≤ s.accruals.length ∧
    s.collateralCount ≤ s.account.balances.length := by
  have covered := satisfies_of_accepted accepted .collateralVectorsCoverActive
  simpa [satisfies, and_assoc] using covered

/-- Every active market slot has its entries. -/
theorem market_vectors_of_accepted (accepted : s.violations = []) :
    s.marketCount ≤ s.markets.length ∧ s.marketCount ≤ s.marks.length ∧
    s.marketCount ≤ s.fundings.length ∧ s.marketCount ≤ s.account.positions.length := by
  have covered := satisfies_of_accepted accepted .marketVectorsCoverActive
  simpa [satisfies, and_assoc] using covered

theorem mem_checkedCollaterals (accepted : s.violations = []) {c : CollateralTerms}
    (active : (j : Int) < s.collateralCount) (found : s.collaterals[j]? = some (some c)) :
    c ∈ s.checkedCollaterals := by
  have nonneg := (counts_of_accepted accepted).1
  exact List.mem_filterMap.mpr ⟨some c, mem_firstSlots nonneg active found, rfl⟩

theorem weight_of_active (accepted : s.violations = []) {c : CollateralTerms}
    (active : (j : Int) < s.collateralCount) (found : s.collaterals[j]? = some (some c)) :
    0 < c.weight ∧ c.weight ≤ oneWhole := by
  have checked := mem_checkedCollaterals accepted active found
  have weights := satisfies_of_accepted accepted .weightsInRange
  simp only [satisfies, List.all_eq_true, Bool.and_eq_true, decide_eq_true_eq] at weights
  exact weights _ checked

/-- The weight of an asset that an active balance is held in. -/
theorem weight_of_accepted (accepted : s.violations = []) (member : (j, raw) ∈ s.balances)
    (found : s.collateralAt j = .ok (Exact.asset s j)) :
    0 < (Exact.asset s j).terms.weight ∧ (Exact.asset s j).terms.weight ≤ oneWhole :=
  weight_of_active accepted (mem_balances.mp member).1 (collateralAt_eq_ok.mp found).1

/-- The multipliers of an asset that an active balance is held in. -/
theorem multipliers_of_accepted (accepted : s.violations = []) (member : (j, raw) ∈ s.balances)
    (found : s.collateralAt j = .ok (Exact.asset s j)) :
    0 ≤ (Exact.asset s j).accrual.supply ∧ 0 ≤ (Exact.asset s j).accrual.borrow := by
  have active := (mem_balances.mp member).1
  have nonneg := (counts_of_accepted accepted).1
  have first := mem_firstSlots nonneg active (collateralAt_eq_ok.mp found).2
  have multipliers := satisfies_of_accepted accepted .multipliersNonnegative
  simp only [satisfies, List.all_eq_true, Bool.and_eq_true, decide_eq_true_eq] at multipliers
  exact multipliers _ first

theorem price_of_accepted (accepted : s.violations = []) {symbol : Text} {price : Int}
    (priced : s.priceOf symbol = .ok price) : 0 < price := by
  obtain ⟨entry, listed, rfl⟩ := Option.map_eq_some_iff.mp (priceOf_eq_ok.mp priced)
  have prices := satisfies_of_accepted accepted .oraclePricesPositive
  simp only [satisfies, List.all_eq_true, decide_eq_true_eq] at prices
  exact prices entry (PriceTable.mem_of_get? listed)

/-- The decimals of a market that an active position is held in. -/
theorem decimals_of_accepted (accepted : s.violations = []) (member : (i, p) ∈ s.positions)
    {m : MarketSlot} (found : s.marketAt i = .ok m) : 0 ≤ m.terms.decimals := by
  have nonneg := (counts_of_accepted accepted).2.2.1
  have active := (mem_positions.mp member).1
  have first := mem_firstSlots nonneg active (marketAt_eq_ok.mp found).1
  have checked : m.terms ∈ s.checkedMarkets := List.mem_filterMap.mpr ⟨some m.terms, first, rfl⟩
  have decimals := satisfies_of_accepted accepted .assetDecimalsNonnegative
  simp only [satisfies, List.all_eq_true, decide_eq_true_eq] at decimals
  exact decimals _ checked

theorem orders_of_accepted (accepted : s.violations = []) (member : (i, p) ∈ s.positions) :
    0 ≤ p.bids ∧ p.bids ≤ Width.i64.hi ∧ 0 ≤ p.asks ∧ p.asks ≤ Width.i64.hi := by
  have held := (mem_positions.mp member).2
  have opened : p ∈ s.openPositions :=
    List.mem_filterMap.mpr ⟨some p, List.mem_of_getElem? held, rfl⟩
  have orders := satisfies_of_accepted accepted .restingOrdersNonnegative
  simp only [satisfies, List.all_eq_true, Bool.and_eq_true, decide_eq_true_eq] at orders
  simpa [and_assoc] using orders p opened

end Solvency.Snapshot
