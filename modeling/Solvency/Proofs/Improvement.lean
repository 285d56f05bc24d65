import Solvency.Proofs.Dominance

/-! Two accounts at the same protocol data. Deposits, repaid debts and profits never cost an account
a check that it passed without them. -/
namespace Solvency

theorem MarketSlot.Relaxed.refl (m : MarketSlot) : m.Relaxed m := ⟨rfl, rfl, rfl, le_rfl⟩

theorem CollateralSlot.Relaxed.refl (c : CollateralSlot) : c.Relaxed c := ⟨le_rfl, le_rfl, le_rfl⟩

/-- Slot by slot, the second account has at least as much, at the same protocol data. -/
structure Snapshot.Improved (s t : Snapshot) : Prop where
  protocol : t = { s with account := t.account }
  balances : List.Forall₂ (· ≤ ·) s.account.balances t.account.balances
  positions : List.Forall₂ (Option.Rel Position.Improved) s.account.positions t.account.positions

namespace Snapshot

variable {s t : Snapshot}

/-- Both accounts are priced by the same slots. -/
theorem Improved.slots (improved : s.Improved t) (j : Nat) :
    Exact.asset t j = Exact.asset s j ∧ Exact.price t j = Exact.price s j ∧
    Exact.market t j = Exact.market s j := by
  rw [improved.protocol]
  exact ⟨rfl, rfl, rfl⟩

theorem Improved.balances_dominated (improved : s.Improved t) :
    List.Forall₂ (Exact.BalanceDominated s t) s.balances t.balances := by
  have count : t.collateralCount = s.collateralCount := by rw [improved.protocol]
  unfold Snapshot.balances
  rw [count, List.forall₂_map_left_iff, List.forall₂_map_right_iff]
  refine (forall₂_zipIdx 0 (List.forall₂_take _ improved.balances)).imp fun x y ⟨index, raw⟩ => ?_
  obtain ⟨asset, price, _⟩ := improved.slots x.2
  exact {
    index, raw
    relaxed := fun _ => asset ▸ .refl _
    deposit := fun _ => price.ge
    debt := fun _ => price.le }

theorem Improved.positions_dominated (improved : s.Improved t) :
    List.Forall₂ (Exact.PositionDominated s t) s.positions t.positions := by
  have count : t.marketCount = s.marketCount := by rw [improved.protocol]
  refine (positions_related count improved.positions).imp fun x y ⟨index, position⟩ => ?_
  obtain ⟨_, _, market⟩ := improved.slots x.1
  exact {
    index
    improved := position
    relaxed := market ▸ .refl _
    signed := .inl (congrArg (fun m : MarketSlot => m.terms.baseFactor) market) }

/-- An account that passes a check still passes it with larger balances, more realized profit and
more quote units in its positions. -/
theorem meetsOwn_of_improved (s t : Snapshot) (kind : FractionKind) (required : Requirements)
    (passes : Bool) (accepted : s.violations = []) (accepted' : t.violations = [])
    (improved : s.Improved t) (passed : s.meetsOwn kind required = .ok true)
    (done : t.meetsOwn kind required = .ok passes) : passes = true :=
  meetsOwn_of_dominated accepted accepted' le_rfl
    ⟨improved.positions_dominated, improved.balances_dominated⟩ passed done

/-- The sample account with a larger deposit. -/
def covered : Snapshot where
  __ := sample
  account := { sample.account with
    balances := [-50500000000000, 100000000000000, -2000000000000] }

/-- The same account after one debt has been repaid and another one in part, and with more profit.
-/
def repaid : Snapshot where
  __ := sample
  account := {
    balances := [1000000000000, 100000000000000, -1000000000000]
    positions := sample.account.positions.map <| Option.map fun p =>
      { p with quoteTotal := p.quoteTotal + 5, realized := p.realized + 3 } }

theorem meetsOwn_of_improved_repaid :
    covered.violations = [] ∧ repaid.violations = [] ∧ covered.Improved repaid ∧
    covered.meetsOwn .initial {} = .ok true ∧
    ∃ passes, repaid.meetsOwn .initial {} = .ok passes ∧ passes = true := by
  have accepted : covered.violations = [] := by decide
  have accepted' : repaid.violations = [] := by decide
  have improved : covered.Improved repaid := {
    protocol := rfl
    balances := .cons (by decide) <| .cons (by decide) <| .cons (by decide) .nil
    positions := .cons (.some ⟨rfl, by decide, by decide⟩) <| .cons .none <|
      .cons (.some ⟨rfl, by decide, by decide⟩) <| .cons (.some ⟨rfl, by decide, by decide⟩) .nil }
  have passed : covered.meetsOwn .initial {} = .ok true := by cbv
  have done : repaid.meetsOwn .initial {} = .ok true := by cbv
  exact ⟨accepted, accepted', improved, passed, true, done,
    meetsOwn_of_improved _ _ _ _ _ accepted accepted' improved passed done⟩

end Snapshot
end Solvency
