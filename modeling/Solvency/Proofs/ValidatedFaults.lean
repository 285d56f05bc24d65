import Solvency.Proofs.Containment
import Solvency.Proofs.PriceLookup

/-! Faults of a validated assessment. Of what an assessment may fail for, validation leaves balances
and positions in slots without configuration, symbols without an entry in the price table, and
results out of their range. Integers of 128 bits, and what is computed from them, have numerals. -/
namespace Solvency

def Position.integers (p : Position) : List Int :=
  [p.size, p.quoteTotal, p.realized, p.bids, p.asks, p.funding]

theorem Position.short_of_integers {p : Position} (short : ∀ n ∈ p.integers, Short n) :
    p.ShortNumbers := by
  simp only [integers, List.forall_mem_cons] at short
  obtain ⟨size, quoteTotal, realized, bids, asks, funding, _⟩ := short
  exact ⟨size, quoteTotal, realized, bids, asks, funding⟩

namespace Snapshot

/-- Every integer that the snapshot holds. -/
def integers (s : Snapshot) : List Int :=
  s.account.balances ++ s.openPositions.flatMap Position.integers ++
  (s.collaterals.filterMap id).flatMap (fun c => [c.weight, c.fee]) ++
  (s.markets.filterMap id).flatMap (fun m => [m.decimals, m.baseFactor]) ++
  s.accruals.flatMap (fun a => [a.supply, a.borrow]) ++
  s.prices.entries.map PriceEntry.price ++ s.marks ++ s.fundings ++
  [s.collateralCount, s.marketCount]

/-- What a validated assessment may fail for: the violations, configuration that an active slot in
use lacks, or a result out of its range. -/
inductive ValidatedFault (s : Snapshot) : Fault → Prop where
  | violated (refused : s.violations ≠ []) :
      ValidatedFault s (.margin (.config (.violated s.violations)))
  | emptyCollateral {j : Nat} {raw : Int} (member : (j, raw) ∈ s.balances) (nonzero : raw ≠ 0)
      (vacant : s.collaterals[j]? = some none) :
      ValidatedFault s (.margin (.config (.emptyCollateral j)))
  | emptyMarket {i : Nat} {p : Position} (member : (i, p) ∈ s.positions)
      (vacant : s.markets[i]? = some none) : ValidatedFault s (.margin (.config (.emptyMarket i)))
  -- The empty symbol has no entry in any table.
  | unpriced {j : Nat} {raw : Int} {c : CollateralTerms} (member : (j, raw) ∈ s.balances)
      (nonzero : raw ≠ 0) (found : s.collaterals[j]? = some (some c))
      (absent : s.prices.get? c.feed = none) (unlisted : c.feed = [] ∨ c.feed ∉ s.prices.symbols) :
      ValidatedFault s (.margin (.priceUnavailable c.feed))
  | overflow (w : Width) (v : Int) : ValidatedFault s (.margin (.overflow w v))

variable {s : Snapshot} {f : Fault}

theorem short_of_integers (ranged : ∀ n ∈ s.integers, Width.i128.Holds n) : s.ShortNumbers := by
  have short : ∀ n ∈ s.integers, Short n := fun n member => (ranged n member).short
  simp only [integers, openPositions, List.forall_mem_append, List.forall_mem_flatMap,
    List.forall_mem_map, List.forall_mem_cons, List.mem_filterMap, id_eq, exists_eq_right] at short
  obtain ⟨⟨⟨⟨⟨⟨⟨⟨balances, positions⟩, collaterals⟩, markets⟩, accruals⟩, prices⟩, marks⟩, fundings⟩,
    collateralCount, marketCount, _⟩ := short
  exact {
    balances, prices, marks, fundings, collateralCount, marketCount
    positions := fun p member => Position.short_of_integers (positions p member)
    weights := fun c member => (collaterals c member).1
    baseFactors := fun m member => (markets m member).2.1
    supplies := fun a member => (accruals a member).1
    borrows := fun a member => (accruals a member).2.1 }

/-- Arithmetic on short numbers fails for nothing but a result out of its range. -/
theorem validated_of_arithmetic (numbers : s.ShortNumbers)
    (fault : ArithmeticFault s.ShortNumbers f) : s.ValidatedFault f := by
  cases fault with
  | overflow w v => exact .overflow w v
  | unwritable long => exact absurd numbers long

theorem validated_of_balance (accepted : s.violations = []) (numbers : s.ShortNumbers)
    (fault : s.BalanceFault f) : s.ValidatedFault f := by
  cases fault with
  | arithmetic fault => exact validated_of_arithmetic numbers fault
  | noEntry member nonzero absent =>
    have covered := collateral_vectors_of_accepted accepted
    have active := (mem_balances.mp member).1
    omega
  | empty member nonzero vacant => exact .emptyCollateral member nonzero vacant
  | unpriced member nonzero found absent =>
    have terms := (collateralAt_eq_ok.mp found).1
    have unlisted := (PriceTable.get?_eq_none_iff (ordered_of_accepted accepted)).mp absent
    exact .unpriced member nonzero terms absent unlisted
  | weightless member owed found zero =>
    obtain rfl := collateralAt_exact found
    have positive := (weight_of_accepted accepted member found).1
    exact absurd zero positive.ne'

theorem validated_of_market (accepted : s.violations = []) (numbers : s.ShortNumbers)
    (fault : s.MarketFault f) : s.ValidatedFault f := by
  cases fault with
  | arithmetic fault => exact validated_of_arithmetic numbers fault
  | noEntry member absent =>
    have covered := market_vectors_of_accepted accepted
    have active := (mem_positions.mp member).1
    omega
  | empty member vacant => exact .emptyMarket member vacant

theorem validated_of_position (accepted : s.violations = []) (numbers : s.ShortNumbers)
    (fault : s.PositionFault f) : s.ValidatedFault f := by
  cases fault with
  | market fault => exact validated_of_market accepted numbers fault
  | funding member sized found fault =>
    have nonneg := decimals_of_accepted accepted member found
    exact validated_of_arithmetic numbers (fault.arithmetic_of_nonneg nonneg)

theorem assess_validated_ends (label : Text) {required : Requirements}
    (ratios : required.ShortNumbers) (numbers : s.ShortNumbers) :
    Ends s.ValidatedFault (fun _ => True) (s.assess label required true) := by
  rw [assess_validated]
  refine Ends.bind (Q := fun _ => s.violations = []) ?_ fun _ accepted => ?_
  · refine validate_ends.faults ?_
    rintro f ⟨refused, rfl⟩
    exact .violated refused
  · refine (assess_ends ratios).faults ?_
    rintro f (fault | fault)
    · exact validated_of_balance accepted numbers fault
    · exact validated_of_position accepted numbers fault

/-- Under valid settings, a validated assessment of 128-bit data returns, or it fails with a list of
violations, for a slot or a price that is not configured, or by overflow, and for nothing else. -/
theorem assess_returns_or_fails (c : Settings) (valid : c.Valid) (s : Snapshot)
    (ranged : ∀ n ∈ s.integers, Width.i128.Holds n) (label : Text) :
    (∃ a, s.assess label c.requirements true = .ok a) ∨
      ∃ f, s.assess label c.requirements true = .error f ∧ s.ValidatedFault f := by
  have ends := assess_validated_ends label (Settings.ratios_short valid) (short_of_integers ranged)
  cases run : s.assess label c.requirements true with
  | ok a => exact .inl ⟨a, rfl⟩
  | error f => exact .inr ⟨f, rfl, ends.fault run⟩

/-- An accepted account that owes nothing and holds an asset without a price. -/
def unpriced : Snapshot where
  account := { balances := [0, Fixed.scale] }
  collaterals := [none, some { mint := "sol", feed := "SOL", weight := 800 }]
  accruals := [{}, {}]
  collateralCount := 2

theorem assess_returns_or_fails_unpriced :
    Settings.Valid {} ∧ (∀ n ∈ unpriced.integers, Width.i128.Holds n) ∧
    unpriced.violations = [] ∧
    unpriced.assess "a" {} true = .error (.margin (.priceUnavailable "SOL")) ∧
    unpriced.ValidatedFault (.margin (.priceUnavailable "SOL")) := by
  have valid : Settings.Valid {} := ⟨by decide, by decide, by decide⟩
  have ranged : ∀ n ∈ unpriced.integers, Width.i128.Holds n := by decide
  have accepted : unpriced.violations = [] := by cbv
  have failed : unpriced.assess "a" {} true = .error (.margin (.priceUnavailable "SOL")) := by cbv
  refine ⟨valid, ranged, accepted, failed, ?_⟩
  rcases assess_returns_or_fails {} valid unpriced ranged "a" with ⟨a, done⟩ | ⟨f, done, fault⟩
  · rw [failed] at done
    contradiction
  · rw [failed] at done
    cases done
    exact fault

end Snapshot
end Solvency
