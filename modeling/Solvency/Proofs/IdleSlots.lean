import Solvency.Proofs.Accepted
import Solvency.Proofs.Reads

/-! Slots past the active counts. Most invariants are checked up to the counts and not beyond; keys and
resting orders are checked for every position that the account lists. So of two snapshots with the
same active part one may be refused for a position that no assessment reads. -/
namespace Solvency

namespace Position

/-- The key has full length and marks no empty slot. -/
def hasValidKey (p : Position) : Bool := p.key.length == keyLength && p.key != blankKey

def hasValidOrders (p : Position) : Bool :=
  0 ≤ p.bids && p.bids ≤ Width.i64.hi && 0 ≤ p.asks && p.asks ≤ Width.i64.hi

end Position

/-- The check that an invariant makes of every position of the account, active or not. -/
def Invariant.positionCheck? : Invariant → Option (Position → Bool)
  | .positionKeysValid => some Position.hasValidKey
  | .restingOrdersNonnegative => some Position.hasValidOrders
  | _ => none

section Prefixes

variable {α : Type} {xs ys : List α}

theorem getElem?_of_take {n : Int} {i : Nat} (active : (i : Int) < n)
    (same : xs.take n.toNat = ys.take n.toNat) : xs[i]? = ys[i]? := by
  have at_index := congrArg (·[i]?) same
  have inside : i < n.toNat := by omega
  simpa [List.getElem?_take, inside] using at_index

/-- Vectors with the same first entries cover the same counts. -/
theorem covers_of_take {n : Int} (nonneg : 0 ≤ n) (same : xs.take n.toNat = ys.take n.toNat) :
    n ≤ xs.length ↔ n ≤ ys.length := by
  have lengths := congrArg List.length same
  rw [List.length_take, List.length_take] at lengths
  omega

theorem length_le_of_getElem? {i : Nat} (same : xs[i]? = ys[i]?) :
    (xs.length : Int) ≤ i ↔ (ys.length : Int) ≤ i := by
  rw [Nat.cast_le, Nat.cast_le, ← List.getElem?_eq_none_iff, ← List.getElem?_eq_none_iff, same]

theorem slotAt_of_getElem? {i : Nat} (same : xs[i]? = ys[i]?) : slotAt xs i = slotAt ys i := by
  simp only [slotAt, Int.natCast_nonneg, if_true, Int.toNat_natCast, same]

end Prefixes

namespace Snapshot

variable {s t : Snapshot}

/-- The positions in slots past the active ones. -/
def idlePositions (s : Snapshot) : List Position :=
  (s.account.positions.drop s.marketCount.toNat).filterMap id

/-- The second snapshot has the same counts and prices, and every vector starts with the same active
entries. -/
structure SameActive (s t : Snapshot) : Prop where
  collateralCount : t.collateralCount = s.collateralCount
  marketCount : t.marketCount = s.marketCount
  collaterals_nonneg : 0 ≤ s.collateralCount
  markets_nonneg : 0 ≤ s.marketCount
  prices : t.prices = s.prices
  balances : t.account.balances.take s.collateralCount.toNat =
    s.account.balances.take s.collateralCount.toNat
  positions : t.account.positions.take s.marketCount.toNat =
    s.account.positions.take s.marketCount.toNat
  collaterals : t.collaterals.take s.collateralCount.toNat =
    s.collaterals.take s.collateralCount.toNat
  accruals : t.accruals.take s.collateralCount.toNat = s.accruals.take s.collateralCount.toNat
  markets : t.markets.take s.marketCount.toNat = s.markets.take s.marketCount.toNat
  marks : t.marks.take s.marketCount.toNat = s.marks.take s.marketCount.toNat
  fundings : t.fundings.take s.marketCount.toNat = s.fundings.take s.marketCount.toNat

theorem mem_violations {i : Invariant} : i ∈ s.violations ↔ s.satisfies i = false := by
  have listed : i ∈ Invariant.all := by cases i <;> decide
  simp [violations, listed]

/-- Violations are listed in a fixed order, so they are the same list if they are the same set. -/
theorem violations_ext : t.violations = s.violations ↔ ∀ i, t.satisfies i = s.satisfies i := by
  constructor
  · intro same i
    have listed : i ∈ t.violations ↔ i ∈ s.violations := by rw [same]
    rw [mem_violations, mem_violations] at listed
    rw [Bool.eq_iff_iff, ← Bool.not_eq_false, ← Bool.not_eq_false, listed]
  · intro same
    exact List.filter_congr fun i _ => by rw [same i]

theorem openPositions_eq (s : Snapshot) :
    s.openPositions = s.positions.map (·.2) ++ s.idlePositions := by
  have active : s.positions.map (·.2) =
      (s.account.positions.take s.marketCount.toNat).filterMap id := by
    rw [positions, List.map_filterMap]
    conv_rhs => rw [← List.zipIdx_map_fst 0 (s.account.positions.take _), List.filterMap_map]
    simp [Function.comp_def]
  rw [active, idlePositions, ← List.filterMap_append, List.take_append_drop, openPositions]

theorem satisfies_positionCheck {i : Invariant} {check : Position → Bool}
    (found : i.positionCheck? = some check) :
    s.satisfies i = (s.positions.all (fun x => check x.2) && s.idlePositions.all check) := by
  have walked : s.openPositions.all check =
      (s.positions.all (fun x => check x.2) && s.idlePositions.all check) := by
    rw [openPositions_eq, List.all_append, List.all_map]
    rfl
  rw [← walked]
  cases i <;> cases found
  case positionKeysValid => rfl
  case restingOrdersNonnegative => rfl

section SameActive

variable (same : s.SameActive t)

include same

theorem checkedCollaterals_sameActive : t.checkedCollaterals = s.checkedCollaterals := by
  have nonneg := same.collaterals_nonneg
  rw [checkedCollaterals, checkedCollaterals, same.collateralCount, firstSlots_of_nonneg _ nonneg,
    firstSlots_of_nonneg _ nonneg, same.collaterals]

theorem checkedMarkets_sameActive : t.checkedMarkets = s.checkedMarkets := by
  have nonneg := same.markets_nonneg
  rw [checkedMarkets, checkedMarkets, same.marketCount, firstSlots_of_nonneg _ nonneg,
    firstSlots_of_nonneg _ nonneg, same.markets]

theorem checkedAccruals_sameActive :
    firstSlots t.accruals t.collateralCount = firstSlots s.accruals s.collateralCount := by
  have nonneg := same.collaterals_nonneg
  rw [same.collateralCount, firstSlots_of_nonneg _ nonneg, firstSlots_of_nonneg _ nonneg,
    same.accruals]

/-- An invariant that does not look at positions looks at nothing past the counts. -/
theorem satisfies_sameActive {i : Invariant} (other : i.positionCheck? = none) :
    t.satisfies i = s.satisfies i := by
  cases i <;> try cases other
  case activeCountsWithinCapacity =>
    simp only [satisfies, same.collateralCount, same.marketCount]
  case collateralVectorsCoverActive =>
    simp only [satisfies, same.collateralCount,
      covers_of_take same.collaterals_nonneg same.collaterals,
      covers_of_take same.collaterals_nonneg same.accruals,
      covers_of_take same.collaterals_nonneg same.balances]
  case marketVectorsCoverActive =>
    simp only [satisfies, same.marketCount,
      covers_of_take same.markets_nonneg same.markets,
      covers_of_take same.markets_nonneg same.marks,
      covers_of_take same.markets_nonneg same.fundings,
      covers_of_take same.markets_nonneg same.positions]
  case weightsInRange => simp only [satisfies, checkedCollaterals_sameActive same]
  case liquidationFeesInRange => simp only [satisfies, checkedCollaterals_sameActive same]
  case multipliersNonnegative => simp only [satisfies, checkedAccruals_sameActive same]
  case baseFactorsInRange => simp only [satisfies, checkedMarkets_sameActive same]
  case assetDecimalsNonnegative => simp only [satisfies, checkedMarkets_sameActive same]
  case oraclePricesPositive => simp only [satisfies, same.prices]
  case oracleTableSortedUnique => simp only [satisfies, same.prices]

/-- The slots that the account uses are active ones. -/
theorem SameActive.sameReads : s.SameReads t where
  collateralCount := same.collateralCount
  marketCount := same.marketCount
  balances := same.balances
  positions := same.positions
  collaterals x member _ := by
    have active := (mem_balances.mp member).1
    have terms := getElem?_of_take active same.collaterals
    have accrual := getElem?_of_take active same.accruals
    simp only [collateralAt, length_le_of_getElem? terms, length_le_of_getElem? accrual,
      slotAt_of_getElem? terms, slotAt_of_getElem? accrual]
  prices _ _ _ _ _ := by rw [same.prices]
  markets x member := by
    have active := (mem_positions.mp member).1
    have terms := getElem?_of_take active same.markets
    have mark := getElem?_of_take active same.marks
    have funding := getElem?_of_take active same.fundings
    simp only [marketAt, length_le_of_getElem? terms, length_le_of_getElem? mark,
      length_le_of_getElem? funding, slotAt_of_getElem? terms, slotAt_of_getElem? mark,
      slotAt_of_getElem? funding]

end SameActive

/-- Two snapshots with the same active part violate the same invariants exactly if each check of
positions that the active ones pass is passed by the idle ones of both or of neither. No other
invariant tells them apart, and without validation their assessments are the same. -/
theorem violations_eq_iff (s t : Snapshot) (same : s.SameActive t) :
    (t.violations = s.violations ↔ ∀ i check, Invariant.positionCheck? i = some check →
      (∀ x ∈ s.positions, check x.2 = true) →
      t.idlePositions.all check = s.idlePositions.all check) ∧
    (∀ i, Invariant.positionCheck? i = none → (i ∈ t.violations ↔ i ∈ s.violations)) ∧
    ∀ label required, t.assess label required false = s.assess label required false := by
  refine ⟨?_, fun i other => ?_, assess_sameReads same.sameReads⟩
  · rw [violations_ext]
    constructor
    · intro agree i check found active
      have verdicts := agree i
      rw [satisfies_positionCheck found, satisfies_positionCheck found,
        positions_sameReads same.sameReads, List.all_eq_true.mpr active] at verdicts
      simpa using verdicts
    · intro idle i
      cases found : i.positionCheck? with
      | none => exact satisfies_sameActive same found
      | some check =>
        rw [satisfies_positionCheck found, satisfies_positionCheck found,
          positions_sameReads same.sameReads]
        cases active : s.positions.all fun x => check x.2 with
        | false => rfl
        | true => rw [idle i check found (List.all_eq_true.mp active)]
  · rw [mem_violations, mem_violations, satisfies_sameActive same other]

/-- The sample with one more position, past the active ones, and further entries in other vectors. -/
def stocked (p : Position) : Snapshot where
  __ := sample
  account := {
    balances := sample.account.balances ++ [-1]
    positions := sample.account.positions ++ [none, some p] }
  collaterals := sample.collaterals ++ [some ⟨"btc", "BTC", 0, -1⟩]
  markets := sample.markets ++ [none, some ⟨"D", -3, 70000⟩]
  accruals := sample.accruals ++ [{ supply := -1 }]
  marks := sample.marks ++ [-1]
  fundings := sample.fundings ++ [5]

theorem stocked_sameActive (p : Position) : sample.SameActive (stocked p) where
  collateralCount := rfl
  marketCount := rfl
  collaterals_nonneg := by decide
  markets_nonneg := by decide
  prices := rfl
  balances := rfl
  positions := rfl
  collaterals := rfl
  accruals := rfl
  markets := rfl
  marks := rfl
  fundings := rfl

theorem violations_eq_iff_stocked :
    sample.SameActive (stocked { key := 9 :: List.replicate 31 0, size := 7, asks := 4 }) ∧
    sample.violations = [] ∧
    (stocked { key := 9 :: List.replicate 31 0, size := 7, asks := 4 }).violations = [] := by
  have same := stocked_sameActive { key := 9 :: List.replicate 31 0, size := 7, asks := 4 }
  have accepted : sample.violations = [] := by decide
  refine ⟨same, accepted, ((violations_eq_iff _ _ same).1.mpr ?_).trans accepted⟩
  intro i check found _
  cases i <;> cases found <;> decide

/-- A position that is not active, and that no assessment reads, has its account refused. -/
theorem not_violations_eq :
    ¬ ∀ s t : Snapshot, s.SameActive t → t.violations = s.violations := by
  intro agree
  have verdicts := agree _ _ (stocked_sameActive { key := blankKey, size := 7 })
  exact absurd verdicts (by decide)

end Snapshot
end Solvency
