import Solvency.Proofs.Dominance

/-! One account at two sets of protocol data. Higher factors and ratios, lower weights, less
interest on deposits, more on debts, and prices that move against the account never make it pass a
check that it fails without them. -/
namespace Solvency

namespace Snapshot

/-- The oracle price of the asset in a collateral slot. -/
def assetPrice (s : Snapshot) (j : Nat) : Except Fault Int := do
  let slot ← s.collateralAt j
  s.priceOf slot.terms.feed

/-- The same account, in the second snapshot at protocol data that is nowhere better for it. What
one of them has no entry for is not compared. -/
structure Harsher (s t : Snapshot) : Prop where
  account : t.account = s.account
  collateralCount : t.collateralCount = s.collateralCount
  marketCount : t.marketCount = s.marketCount
  markets : ∀ (i : Nat) (m n : MarketSlot), (i : Int) < s.marketCount →
    s.marketAt i = .ok m → t.marketAt i = .ok n → n.Relaxed m
  assets : ∀ (j : Nat) (c d : CollateralSlot), (j : Int) < s.collateralCount →
    s.collateralAt j = .ok c → t.collateralAt j = .ok d → d.Relaxed c
  prices : ∀ (j : Nat) (raw p q : Int), (j, raw) ∈ s.balances →
    s.assetPrice j = .ok p → t.assetPrice j = .ok q → (0 < raw → q ≤ p) ∧ (raw < 0 → p ≤ q)

variable {s t : Snapshot}

theorem assetPrice_eq_ok {j : Nat} (valued : Exact.Valued s j) :
    s.assetPrice j = .ok (Exact.price s j) := by
  rw [assetPrice, bind_eq_ok]
  exact ⟨_, valued.found, valued.price⟩

theorem Harsher.positions_dominated (harsher : s.Harsher t)
    (marks : ∀ mark ∈ s.marks.take s.marketCount.toNat, 0 ≤ mark)
    (lenient : ∀ x ∈ s.positions, Exact.Marked s x.1 x.2)
    (harsh : ∀ x ∈ t.positions, Exact.Marked t x.1 x.2) :
    List.Forall₂ (Exact.PositionDominated t s) t.positions s.positions := by
  have same : t.positions = s.positions := by
    rw [positions, positions, harsher.account, harsher.marketCount]
  rw [same] at harsh ⊢
  refine List.forall₂_same.mpr fun x member => ?_
  have active := (mem_positions.mp member).1
  have relaxed := harsher.markets x.1 _ _ active (lenient x member).found (harsh x member).found
  have nonneg : 0 ≤ (Exact.market t x.1).mark := relaxed.mark ▸ mark_nonneg member marks
  exact ⟨rfl, ⟨rfl, le_rfl, le_rfl⟩, relaxed, .inr nonneg⟩

theorem Harsher.balances_dominated (harsher : s.Harsher t)
    (lenient : ∀ x ∈ s.balances, x.2 ≠ 0 → Exact.Valued s x.1)
    (harsh : ∀ x ∈ t.balances, x.2 ≠ 0 → Exact.Valued t x.1) :
    List.Forall₂ (Exact.BalanceDominated t s) t.balances s.balances := by
  have same : t.balances = s.balances := by
    rw [balances, balances, harsher.account, harsher.collateralCount]
  rw [same] at harsh ⊢
  refine List.forall₂_same.mpr fun x member => ?_
  have active := (mem_balances.mp member).1
  have prices (nonzero : x.2 ≠ 0) := harsher.prices x.1 x.2 _ _ member
    (assetPrice_eq_ok (lenient x member nonzero)) (assetPrice_eq_ok (harsh x member nonzero))
  exact {
    index := rfl
    raw := le_rfl
    relaxed := fun signed => harsher.assets x.1 _ _ active
      (lenient x member (by omega)).found (harsh x member (by omega)).found
    deposit := fun deposit => (prices (by omega)).1 deposit
    debt := fun debt => (prices (by omega)).2 debt }

/-- An account that passes a check at harsher protocol data and requirements passes it at the milder
ones. -/
theorem meetsOwn_of_harsher (s t : Snapshot) (kind : FractionKind)
    (required required' : Requirements) (passes : Bool) (accepted : s.violations = [])
    (accepted' : t.violations = [])
    (marks : ∀ mark ∈ s.marks.take s.marketCount.toNat, 0 ≤ mark) (harsher : s.Harsher t)
    (initial : required.initial ≤ required'.initial)
    (maintenance : required.maintenance ≤ required'.maintenance)
    (passed : t.meetsOwn kind required' = .ok true)
    (done : s.meetsOwn kind required = .ok passes) : passes = true := by
  obtain ⟨_, valued, checked⟩ := bind_eq_ok.mp done
  obtain ⟨_, evaluated, _⟩ := bind_eq_ok.mp checked
  obtain ⟨_, valued', checked'⟩ := bind_eq_ok.mp passed
  obtain ⟨_, evaluated', _⟩ := bind_eq_ok.mp checked'
  have ratios : Exact.ratio kind required ≤ Exact.ratio kind required' := by
    cases kind
    case maintenance => exact maintenance
    all_goals exact initial
  have dominated : Exact.Dominated t s := {
    positions := harsher.positions_dominated marks (evaluate_eq_ok evaluated).2.1
      (evaluate_eq_ok evaluated').2.1
    balances := harsher.balances_dominated (collateral_eq_ok valued).2 (collateral_eq_ok valued').2 }
  exact meetsOwn_of_dominated accepted' accepted ratios dominated passed done

/-- The sample account with a larger deposit, at protocol data and prices of the given harshness. -/
def stressed (strain : Int) : Snapshot where
  __ := sample
  account := { sample.account with
    balances := [-50500000000000, 200000000000000, -2000000000000] }
  collaterals := [some ⟨"usd", "USD", 1000 - strain, 0⟩, some ⟨"sol", "SOL", 800 - strain, 20⟩,
    some ⟨"eth", "ETH", 900 - strain, 10⟩]
  markets := [some ⟨"A", 1, 101 + strain⟩, none, some ⟨"B", 0, 60 + strain⟩, some ⟨"C", 2, 15⟩]
  accruals := [{ borrow := 1010000000000 + strain }, { supply := 1005000000000 - strain },
    { borrow := 1020000000000 + strain }]
  prices := ⟨[⟨"ETH", 31300000000000 + strain⟩, ⟨"SOL", 2700000000000 - strain⟩,
    ⟨"USD", 1000000000000 + strain⟩]⟩

section Stress

variable {strain : Int}

theorem stressed_markets (worse : 0 ≤ strain) {i : Nat} {m n : MarketSlot}
    (found : (stressed 0).marketAt i = .ok m) (found' : (stressed strain).marketAt i = .ok n) :
    n.Relaxed m := by
  obtain ⟨terms, mark, funding⟩ := marketAt_eq_ok.mp found
  obtain ⟨terms', mark', funding'⟩ := marketAt_eq_ok.mp found'
  have same_mark : m.mark = n.mark := Option.some.inj (mark.symm.trans mark')
  have same_funding : m.funding = n.funding := Option.some.inj (funding.symm.trans funding')
  rcases i with _ | _ | _ | _ | i
  all_goals
    simp only [stressed, List.getElem?_cons_zero, List.getElem?_cons_succ, List.getElem?_nil,
      Option.some.injEq, reduceCtorEq] at terms terms'
  all_goals
    refine ⟨?_, same_mark, same_funding, ?_⟩
    · rw [← terms, ← terms']
    · simp only [← terms, ← terms']
      omega

theorem stressed_assets (worse : 0 ≤ strain) {j : Nat} {c d : CollateralSlot}
    (found : (stressed 0).collateralAt j = .ok c)
    (found' : (stressed strain).collateralAt j = .ok d) : d.Relaxed c := by
  obtain ⟨terms, accrual⟩ := collateralAt_eq_ok.mp found
  obtain ⟨terms', accrual'⟩ := collateralAt_eq_ok.mp found'
  rcases j with _ | _ | _ | j
  all_goals
    simp only [stressed, List.getElem?_cons_zero, List.getElem?_cons_succ, List.getElem?_nil,
      Option.some.injEq, reduceCtorEq] at terms terms' accrual accrual'
  all_goals
    constructor
    all_goals
      simp only [← terms, ← terms', ← accrual, ← accrual']
      omega

theorem stressed_prices (strain : Int) :
    (stressed strain).assetPrice 0 = .ok (1000000000000 + strain) ∧
    (stressed strain).assetPrice 1 = .ok (2700000000000 - strain) ∧
    (stressed strain).assetPrice 2 = .ok (31300000000000 + strain) := by
  refine ⟨?_, ?_, ?_⟩ <;> cbv

theorem stressed_harsher (worse : 0 ≤ strain) : (stressed 0).Harsher (stressed strain) where
  account := rfl
  collateralCount := rfl
  marketCount := rfl
  markets _ _ _ _ found found' := stressed_markets worse found found'
  assets _ _ _ _ found found' := stressed_assets worse found found'
  prices j raw p q member priced priced' := by
    obtain ⟨first, second, third⟩ := stressed_prices 0
    obtain ⟨first', second', third'⟩ := stressed_prices strain
    have listed : (j, raw) = (0, -50500000000000) ∨ (j, raw) = (1, 200000000000000) ∨
        (j, raw) = (2, -2000000000000) := by simpa [balances, stressed, sample] using member
    rcases listed with slot | slot | slot
    all_goals
      obtain ⟨rfl, rfl⟩ := Prod.mk.inj slot
      simp_all only [Except.ok.injEq]
      omega

end Stress

theorem meetsOwn_of_harsher_stressed :
    (stressed 0).violations = [] ∧ (stressed 20).violations = [] ∧
    (∀ mark ∈ (stressed 0).marks.take (stressed 0).marketCount.toNat, 0 ≤ mark) ∧
    (stressed 0).Harsher (stressed 20) ∧
    (stressed 20).meetsOwn .initial ⟨1150000, 1040000⟩ = .ok true ∧
    ∃ passes, (stressed 0).meetsOwn .initial {} = .ok passes ∧ passes = true := by
  have accepted : (stressed 0).violations = [] := by decide
  have accepted' : (stressed 20).violations = [] := by decide
  have marks : ∀ mark ∈ (stressed 0).marks.take (stressed 0).marketCount.toNat, 0 ≤ mark := by decide
  have harsher : (stressed 0).Harsher (stressed 20) := stressed_harsher (by decide)
  have passed : (stressed 20).meetsOwn .initial ⟨1150000, 1040000⟩ = .ok true := by cbv
  have done : (stressed 0).meetsOwn .initial {} = .ok true := by cbv
  exact ⟨accepted, accepted', marks, harsher, passed, true, done, meetsOwn_of_harsher _ _ _ _ _ _
    accepted accepted' marks harsher (by decide) (by decide) passed done⟩

end Snapshot
end Solvency
