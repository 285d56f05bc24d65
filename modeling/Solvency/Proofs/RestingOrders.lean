import Solvency.Proofs.Dominance

/-! Two accounts that differ in their resting orders. Maintenance asks for the same and allows the same
in both; orders can still decide whether the account counts as exposed at all, and an account that
does not passes without being asked. -/
namespace Solvency

/-- The second position has other resting orders and is the same otherwise. -/
def Position.Reordered (p q : Position) : Prop := q = { p with bids := q.bids, asks := q.asks }

/-- Slot by slot, the second account differs in its resting orders alone, at the same protocol data. -/
structure Snapshot.Reordered (s t : Snapshot) : Prop where
  protocol : t = { s with account := { s.account with positions := t.account.positions } }
  positions : List.Forall₂ (Option.Rel Position.Reordered) s.account.positions t.account.positions

namespace Exact

/-- The account is exposed by what it holds or owes, whatever its orders are. -/
def Committed (s : Snapshot) : Prop :=
  (∃ x ∈ s.positions, 0 < held x.2 (market s x.1).mark) ∨
    ∃ x ∈ borrows s, 0 < borrowed s (realized s) x.1 x.2

/-- The outcome of the maintenance check for an account that is taken as exposed, or not. -/
def maintained (s : Snapshot) (collateral : Int) (required : Requirements) (exposed : Bool) :
    FractionOutcome :=
  if exposed then {
    kind := .maintenance
    passed := decide (requirement s .maintenance required < budget s .maintenance collateral)
    hasExposure := true
    budget := budget s .maintenance collateral
    requirement := requirement s .maintenance required }
  else { kind := .maintenance, passed := true }

variable {s t : Snapshot} {p q : Position}

theorem gain_reordered (reordered : p.Reordered q) (m : MarketSlot) : gain q m = gain p m := by
  rw [reordered]
  rfl

theorem held_reordered (reordered : p.Reordered q) (mark : Int) : held q mark = held p mark := by
  rw [reordered]
  rfl

section Reordered

variable (reordered : s.Reordered t)

include reordered

theorem market_reordered (i : Nat) : market t i = market s i := by
  rw [reordered.protocol]
  rfl

theorem borrows_reordered : borrows t = borrows s := by
  rw [reordered.protocol]
  rfl

theorem charged_reordered (profit : Int) (j : Nat) (raw : Int) :
    asset t j = asset s j ∧ borrowed t profit j raw = borrowed s profit j raw := by
  rw [reordered.protocol]
  exact ⟨rfl, rfl⟩

theorem positions_reordered :
    List.Forall₂ (fun x y => y.1 = x.1 ∧ x.2.Reordered y.2) s.positions t.positions := by
  have count : t.marketCount = s.marketCount := by rw [reordered.protocol]
  exact Snapshot.positions_related count reordered.positions

/-- A sum over the positions that does not read their orders is the same. -/
theorem sum_reordered {f g : Nat × Position → Int}
    (same : ∀ i p q, p.Reordered q → g (i, q) = f (i, p)) :
    (t.positions.map g).sum = (s.positions.map f).sum := by
  have values : List.Forall₂ (· = ·) (t.positions.map g) (s.positions.map f) := by
    rw [List.forall₂_map_left_iff, List.forall₂_map_right_iff]
    refine (positions_reordered reordered).flip.imp ?_
    rintro ⟨i, q⟩ ⟨j, p⟩ ⟨index : i = j, position⟩
    rw [index]
    exact same j p q position
  rw [List.forall₂_eq_eq_eq] at values
  rw [values]

theorem realized_reordered : realized t = realized s := by
  refine sum_reordered reordered fun i p q position => ?_
  show q.realized = p.realized
  rw [position]

theorem accountValue_reordered (collateral : Int) :
    accountValue t collateral = accountValue s collateral := by
  refine congrArg (collateral + ·) (sum_reordered reordered fun i p q position => ?_)
  show gain q (market t i) = gain p (market s i)
  rw [market_reordered reordered, gain_reordered position]

theorem requirement_reordered (required : Requirements) :
    requirement t .maintenance required = requirement s .maintenance required := by
  have borrowed (x : Nat × Int) := charged_reordered reordered (realized s) x.1 x.2
  refine congrArg₂ (· + ·) (sum_reordered reordered fun i p q position => ?_) ?_
  · show marketFactor .maintenance (market t i).terms.baseFactor * held q (market t i).mark =
      marketFactor .maintenance (market s i).terms.baseFactor * held p (market s i).mark
    rw [market_reordered reordered, held_reordered position]
  · rw [borrows_reordered reordered, realized_reordered reordered]
    simp only [borrowed]

theorem maintained_reordered (collateral : Int) (required : Requirements) (exposed : Bool) :
    maintained t collateral required exposed = maintained s collateral required exposed := by
  rw [maintained, maintained, requirement_reordered reordered, budget, budget,
    accountValue_reordered reordered]

theorem committed_reordered (committed : Committed s) : Committed t := by
  rcases committed with ⟨x, member, positive⟩ | ⟨x, member, positive⟩
  · obtain ⟨y, listed, index, position⟩ :=
      exists_left_of_mem (positions_reordered reordered).flip member
    refine .inl ⟨y, listed, ?_⟩
    rwa [held_reordered position, index, market_reordered reordered]
  · rw [← borrows_reordered reordered] at member
    refine .inr ⟨x, member, ?_⟩
    rwa [realized_reordered reordered, (charged_reordered reordered _ _ _).2]

end Reordered

/-- Only a positive mark makes what is held an exposure, and then orders can only add to it. -/
theorem exposed_of_committed (accepted : s.violations = []) (committed : Committed s) :
    Exposed s := by
  rcases committed with ⟨x, member, positive⟩ | borrow
  · have mark : 0 ≤ (market s x.1).mark := by
      by_contra negative
      have product : |x.2.size| * (market s x.1).mark ≤ 0 * 0 :=
        mul_nonpos_of_nonneg_of_nonpos (abs_nonneg _) (by omega)
      have nothing : held x.2 (market s x.1).mark ≤ 0 := by
        simpa [held] using ceil_product_mono Fixed.scale_pos.le product
      omega
    obtain ⟨bids, _, asks, _⟩ := Snapshot.orders_of_accepted accepted member
    exact .inl ⟨x, member, positive.trans_le (held_le_filled bids asks mark)⟩
  · exact .inr borrow

theorem requirement_uncommitted {required : Requirements}
    (marks : ∀ mark ∈ s.marks.take s.marketCount.toNat, 0 ≤ mark) (uncommitted : ¬ Committed s) :
    requirement s .maintenance required = 0 := by
  obtain ⟨positions, owed⟩ := not_or.mp uncommitted
  apply requirement_eq_zero
  · intro x member
    have nonneg := held_nonneg x.2 (Snapshot.mark_nonneg member marks)
    have nonpos := not_lt.mp fun positive => positions ⟨x, member, positive⟩
    exact le_antisymm nonpos nonneg
  · intro x member
    have nonpos := not_lt.mp fun positive => owed ⟨x, member, positive⟩
    exact le_antisymm nonpos (le_max_left _ _)

/-- One that is not taken as exposed passes; two that are are judged by the same amounts. -/
theorem maintained_passed_iff (collateral : Int) (required : Requirements) (a b : Bool) :
    (maintained s collateral required a).passed = (maintained s collateral required b).passed ↔
      a = b ∨ requirement s .maintenance required < budget s .maintenance collateral := by
  cases a <;> cases b <;> simp [maintained]

end Exact

namespace Snapshot

variable {s : Snapshot} {collateral : Int} {required : Requirements} {o : FractionOutcome}

theorem evaluate_maintained (done : s.evaluate .maintenance collateral required = .ok o) :
    o = Exact.maintained s collateral required o.hasExposure := by
  by_cases exposed : Exact.Exposed s
  · obtain rfl := evaluate_exposed done exposed
    rfl
  · obtain rfl := evaluate_unexposed done exposed
    rfl

/-- Resting orders reach the maintenance check through its exposure flag alone. The verdicts of two
accounts that differ in their orders are the same, unless one of them is exposed and the other is not
and the budget does not exceed the requirement. An account that holds or owes something is exposed
with any orders; where nothing is held or owed, nothing is required, and it takes an account value that
is not positive. -/
theorem maintenance_reordered (s t : Snapshot) (collateral : Int) (required : Requirements)
    (o o' : FractionOutcome) (accepted : s.violations = []) (accepted' : t.violations = [])
    (reordered : s.Reordered t) (done : s.evaluate .maintenance collateral required = .ok o)
    (done' : t.evaluate .maintenance collateral required = .ok o') :
    o = Exact.maintained s collateral required o.hasExposure ∧
    o' = Exact.maintained s collateral required o'.hasExposure ∧
    (o.passed = o'.passed ↔ o.hasExposure = o'.hasExposure ∨
      Exact.requirement s .maintenance required < Exact.budget s .maintenance collateral) ∧
    (Exact.Committed s → o.hasExposure = true ∧ o'.hasExposure = true) ∧
    (¬ Exact.Committed s → (∀ mark ∈ s.marks.take s.marketCount.toNat, 0 ≤ mark) →
      Exact.requirement s .maintenance required = 0 ∧
      (o.passed = o'.passed ↔
        o.hasExposure = o'.hasExposure ∨ 0 < Exact.accountValue s collateral)) := by
  have left := evaluate_maintained done
  have right := (evaluate_maintained done').trans
    (Exact.maintained_reordered reordered collateral required o'.hasExposure)
  have verdicts : o.passed = o'.passed ↔ o.hasExposure = o'.hasExposure ∨
      Exact.requirement s .maintenance required < Exact.budget s .maintenance collateral := by
    have judged := Exact.maintained_passed_iff (s := s) collateral required o.hasExposure
      o'.hasExposure
    rwa [← left, ← right] at judged
  refine ⟨left, right, verdicts, fun committed => ?_, fun uncommitted marks => ?_⟩
  · have committed' := Exact.committed_reordered reordered committed
    have exposed := evaluate_exposed done (Exact.exposed_of_committed accepted committed)
    have exposed' := evaluate_exposed done' (Exact.exposed_of_committed accepted' committed')
    exact ⟨congrArg FractionOutcome.hasExposure exposed,
      congrArg FractionOutcome.hasExposure exposed'⟩
  · have free : Exact.requirement s .maintenance required = 0 :=
      Exact.requirement_uncommitted marks uncommitted
    rw [verdicts, free, Exact.budget]
    exact ⟨rfl, by simp [oneWhole]⟩

/-- The sample account with other resting orders in every position. -/
def requoted : Snapshot where
  __ := sample
  account := { sample.account with
    positions := sample.account.positions.map <| Option.map fun p =>
      { p with bids := p.asks, asks := p.bids + 40 } }

theorem requoted_reordered : sample.Reordered requoted where
  protocol := rfl
  positions := .cons (.some rfl) <| .cons .none <| .cons (.some rfl) <| .cons (.some rfl) .nil

theorem maintenance_reordered_requoted :
    sample.violations = [] ∧ requoted.violations = [] ∧ sample.Reordered requoted ∧
    ∃ o o', sample.evaluate .maintenance 60 {} = .ok o ∧
      requoted.evaluate .maintenance 60 {} = .ok o' ∧ o.passed = o'.passed := by
  have accepted : sample.violations = [] := by decide
  have accepted' : requoted.violations = [] := by decide
  have done : sample.evaluate .maintenance 60 {} =
    .ok ⟨.maintenance, true, true, 99000, 24870⟩ := by cbv
  have done' : requoted.evaluate .maintenance 60 {} =
    .ok ⟨.maintenance, true, true, 99000, 24870⟩ := by cbv
  obtain ⟨_, _, verdicts, _⟩ := maintenance_reordered _ _ _ _ _ _ accepted accepted'
    requoted_reordered done done'
  exact ⟨accepted, accepted', requoted_reordered, _, _, done, done', verdicts.mpr (.inl rfl)⟩

/-- An account that has lost more than it holds and has no position left, with the given bids. -/
def idle (bids : Int) : Snapshot where
  account := {
    balances := [3000000000000]
    positions := [some { key := 1 :: List.replicate 31 0, realized := -5, bids }] }
  collaterals := [some ⟨"usd", "USD", 1000, 0⟩]
  markets := [some ⟨"A", 0, 100⟩]
  accruals := [{}]
  prices := ⟨[⟨"USD", 1000000000000⟩]⟩
  marks := [1000000000000]
  fundings := [0]
  collateralCount := 1
  marketCount := 1

/-- A single resting order makes such an account fail. -/
theorem not_maintenance_reordered :
    ¬ ∀ (s t : Snapshot) (collateral : Int) (required : Requirements) (o o' : FractionOutcome),
      s.violations = [] → t.violations = [] → s.Reordered t →
      s.evaluate .maintenance collateral required = .ok o →
      t.evaluate .maintenance collateral required = .ok o' → o.passed = o'.passed := by
  intro same
  have reordered : (idle 0).Reordered (idle 1) := ⟨rfl, .cons (.some rfl) .nil⟩
  have verdict := same (idle 0) (idle 1) 3 {} ⟨.maintenance, true, false, 0, 0⟩
    ⟨.maintenance, false, true, -2000, 0⟩ (by decide) (by decide) reordered (by cbv) (by cbv)
  exact absurd verdict (by decide)

end Snapshot
end Solvency
