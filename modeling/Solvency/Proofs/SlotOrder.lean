import Mathlib.Data.List.Sigma
import Solvency.Proofs.Accepted
import Solvency.Proofs.Collateral
import Solvency.Proofs.Fraction

/-! The order of the slots. Totals are passed on from slot to slot in ascending index, and checked at
every step; where all steps succeed they are sums, which do not depend on the order. Only the
collateral that realized profit settles in is told by its index. -/
namespace Solvency

section Moved

variable {α : Type} {n : Nat} {σ : Equiv.Perm (Fin n)} {xs ys : List (Nat × α)}

/-- Where a permutation of the first indices takes an index; the others stay. -/
def relocated (σ : Equiv.Perm (Fin n)) (k : Nat) : Nat := if h : k < n then σ ⟨k, h⟩ else k

theorem relocated_val (σ : Equiv.Perm (Fin n)) (i : Fin n) : relocated σ i = σ i := by
  simp [relocated]

theorem relocated_symm (σ : Equiv.Perm (Fin n)) (k : Nat) : relocated σ.symm (relocated σ k) = k := by
  by_cases inside : k < n
  · rw [show k = (⟨k, inside⟩ : Fin n) from rfl, relocated_val, relocated_val,
      Equiv.symm_apply_apply]
  · simp [relocated, inside]

theorem relocated_injective (σ : Equiv.Perm (Fin n)) : Function.Injective (relocated σ) :=
  Function.LeftInverse.injective (relocated_symm σ)

/-- The list with its first items permuted. -/
def permuted (σ : Equiv.Perm (Fin n)) (slots : List α) : List α :=
  slots.mapIdx fun k a => slots.getD (relocated σ.symm k) a

theorem getElem?_permuted {slots : List α} (covers : n ≤ slots.length) (i : Fin n) :
    (permuted σ slots)[(σ i : Nat)]? = slots[(i : Nat)]? := by
  have place := (σ i).isLt.trans_le covers
  have origin := i.isLt.trans_le covers
  have back : relocated σ.symm (σ i) = i := by rw [relocated_val, Equiv.symm_apply_apply]
  rw [permuted, List.getElem?_mapIdx, List.getElem?_eq_getElem place, Option.map_some, back,
    List.getD_eq_getElem?_getD, List.getElem?_eq_getElem origin, Option.getD_some]

/-- The second list holds the items of the first, in any order and with their indices renamed. -/
structure Moved (σ : Equiv.Perm (Fin n)) (xs ys : List (Nat × α)) : Prop where
  inside : ∀ x ∈ xs, x.1 < n
  perm : ys.Perm (xs.map fun x => (relocated σ x.1, x.2))

namespace Moved

theorem of_mem (inside : ∀ x ∈ xs, x.1 < n) (inside' : ∀ y ∈ ys, y.1 < n) (nodup : xs.Nodup)
    (nodup' : ys.Nodup) (mem : ∀ (i : Fin n) a, ((σ i : Nat), a) ∈ ys ↔ ((i : Nat), a) ∈ xs) :
    Moved σ xs ys := by
  have injective : Function.Injective fun x : Nat × α => (relocated σ x.1, x.2) :=
    (relocated_injective σ).prodMap Function.injective_id
  -- No item stands twice in either list, so the same members are the same list in another order.
  refine ⟨inside, (List.perm_ext_iff_of_nodup nodup' (nodup.map injective)).mpr ?_⟩
  rintro ⟨k, a⟩
  constructor
  · intro member
    obtain ⟨i, place⟩ := σ.surjective ⟨k, inside' _ member⟩
    have index : k = σ i := (congrArg Fin.val place).symm
    subst index
    exact List.mem_map.mpr ⟨(i, a), (mem i a).mp member, by rw [relocated_val]⟩
  · intro member
    obtain ⟨⟨i, b⟩, listed, same⟩ := List.mem_map.mp member
    cases same
    rw [relocated_val σ ⟨i, inside _ listed⟩]
    exact (mem ⟨i, inside _ listed⟩ b).mpr listed

/-- A sum of amounts that go along with their indices is the same. -/
theorem sum (moved : Moved σ xs ys) {f g : Nat × α → Int}
    (same : ∀ (i : Fin n) a, g (σ i, a) = f (i, a)) : (ys.map g).sum = (xs.map f).sum := by
  rw [(moved.perm.map g).sum_eq, List.map_map]
  refine congrArg List.sum (List.map_congr_left fun x member => ?_)
  have renamed := relocated_val σ ⟨x.1, moved.inside x member⟩
  rw [Function.comp_apply, renamed]
  exact same ⟨x.1, moved.inside x member⟩ x.2

theorem exists_iff (moved : Moved σ xs ys) {P Q : Nat × α → Prop}
    (same : ∀ (i : Fin n) a, Q (σ i, a) ↔ P (i, a)) : (∃ y ∈ ys, Q y) ↔ ∃ x ∈ xs, P x := by
  simp only [moved.perm.mem_iff, List.mem_map, exists_exists_and_eq_and]
  refine exists_congr fun x => and_congr_right fun member => ?_
  rw [relocated_val σ ⟨x.1, moved.inside x member⟩]
  exact same ⟨x.1, moved.inside x member⟩ x.2

theorem filter (moved : Moved σ xs ys) (kept : α → Bool) :
    Moved σ (xs.filter fun x => kept x.2) (ys.filter fun y => kept y.2) where
  inside x member := moved.inside x (List.mem_filter.mp member).1
  perm := by
    refine (moved.perm.filter _).trans (.of_eq ?_)
    rw [List.filter_map]
    rfl

end Moved

end Moved

namespace Snapshot

theorem nodup_positions (s : Snapshot) : s.positions.Nodup :=
  s.positions_ascending.imp fun before same => before.ne (congrArg Prod.fst same)

theorem nodup_balances (s : Snapshot) : s.balances.Nodup :=
  (List.nodup_zipIdx_map_snd _).of_map.map Prod.swap_injective

theorem lt_of_mem_positions {s : Snapshot} {x : Nat × Position} (member : x ∈ s.positions) :
    x.1 < s.marketCount.toNat := by
  have active := (mem_positions.mp member).1
  omega

theorem lt_of_mem_balances {s : Snapshot} {x : Nat × Int} (member : x ∈ s.balances) :
    x.1 < s.collateralCount.toNat := by
  have active := (mem_balances.mp member).1
  omega

/-- The second snapshot has the active slots of the first at other places, each with all that belongs
to it, and prices the same symbols. Settlement stays with its collateral. -/
structure Rearranged (s t : Snapshot) (σ : Equiv.Perm (Fin s.marketCount.toNat))
    (τ : Equiv.Perm (Fin s.collateralCount.toNat)) : Prop where
  marketCount : t.marketCount = s.marketCount
  positions : ∀ i, t.account.positions[(σ i : Nat)]? = s.account.positions[(i : Nat)]?
  markets : ∀ i, t.markets[(σ i : Nat)]? = s.markets[(i : Nat)]?
  marks : ∀ i, t.marks[(σ i : Nat)]? = s.marks[(i : Nat)]?
  fundings : ∀ i, t.fundings[(σ i : Nat)]? = s.fundings[(i : Nat)]?
  collateralCount : t.collateralCount = s.collateralCount
  balances : ∀ j, t.account.balances[(τ j : Nat)]? = s.account.balances[(j : Nat)]?
  collaterals : ∀ j, t.collaterals[(τ j : Nat)]? = s.collaterals[(j : Nat)]?
  accruals : ∀ j, t.accruals[(τ j : Nat)]? = s.accruals[(j : Nat)]?
  settlement : ∀ j : Fin s.collateralCount.toNat, (j : Nat) = settlementIndex → τ j = j
  prices : t.prices = s.prices

/-- The snapshot with its active market slots and its active collateral slots in another order. -/
def rearrange (s : Snapshot) (σ : Equiv.Perm (Fin s.marketCount.toNat))
    (τ : Equiv.Perm (Fin s.collateralCount.toNat)) : Snapshot :=
  { s with
    account := {
      balances := permuted τ s.account.balances
      positions := permuted σ s.account.positions }
    collaterals := permuted τ s.collaterals
    markets := permuted σ s.markets
    accruals := permuted τ s.accruals
    marks := permuted σ s.marks
    fundings := permuted σ s.fundings }

theorem rearrange_rearranged {s : Snapshot} (accepted : s.violations = [])
    (σ : Equiv.Perm (Fin s.marketCount.toNat)) (τ : Equiv.Perm (Fin s.collateralCount.toNat))
    (settlement : ∀ j : Fin s.collateralCount.toNat, (j : Nat) = settlementIndex → τ j = j) :
    s.Rearranged (s.rearrange σ τ) σ τ := by
  have assets := collateral_vectors_of_accepted accepted
  have markets := market_vectors_of_accepted accepted
  exact {
    marketCount := rfl
    positions := getElem?_permuted (by omega)
    markets := getElem?_permuted (by omega)
    marks := getElem?_permuted (by omega)
    fundings := getElem?_permuted (by omega)
    collateralCount := rfl
    balances := getElem?_permuted (by omega)
    collaterals := getElem?_permuted (by omega)
    accruals := getElem?_permuted (by omega)
    settlement
    prices := rfl }

namespace Rearranged

variable {s t : Snapshot} {σ : Equiv.Perm (Fin s.marketCount.toNat)}
  {τ : Equiv.Perm (Fin s.collateralCount.toNat)} (rearranged : s.Rearranged t σ τ)

include rearranged

theorem moved_positions : Moved σ s.positions t.positions := by
  have inside : ∀ y ∈ t.positions, y.1 < s.marketCount.toNat := fun y member =>
    rearranged.marketCount ▸ lt_of_mem_positions member
  refine .of_mem (fun x => lt_of_mem_positions) inside s.nodup_positions t.nodup_positions ?_
  intro i p
  have place := (σ i).isLt
  have place' := i.isLt
  rw [mem_positions, mem_positions, rearranged.positions, rearranged.marketCount]
  refine and_congr_left fun _ => ?_
  omega

theorem moved_balances : Moved τ s.balances t.balances := by
  have inside : ∀ y ∈ t.balances, y.1 < s.collateralCount.toNat := fun y member =>
    rearranged.collateralCount ▸ lt_of_mem_balances member
  refine .of_mem (fun x => lt_of_mem_balances) inside s.nodup_balances t.nodup_balances ?_
  intro j raw
  have place := (τ j).isLt
  have place' := j.isLt
  rw [mem_balances, mem_balances, rearranged.balances, rearranged.collateralCount]
  refine and_congr_left fun _ => ?_
  omega

theorem moved_borrows : Moved τ (Exact.borrows s) (Exact.borrows t) :=
  rearranged.moved_balances.filter fun raw => raw < 0

theorem market_eq (i : Fin s.marketCount.toNat) :
    Exact.market t (σ i) = Exact.market s i := by
  rw [Exact.market, rearranged.markets, rearranged.marks, rearranged.fundings]
  rfl

theorem asset_eq (j : Fin s.collateralCount.toNat) :
    Exact.asset t (τ j) = Exact.asset s j := by
  rw [Exact.asset, rearranged.collaterals, rearranged.accruals]
  rfl

theorem price_eq (j : Fin s.collateralCount.toNat) :
    Exact.price t (τ j) = Exact.price s j := by
  rw [Exact.price, rearranged.asset_eq, rearranged.prices]
  rfl

/-- No other collateral takes the place of the one that profit settles in. -/
theorem settles_iff (j : Fin s.collateralCount.toNat) :
    (τ j : Nat) = settlementIndex ↔ (j : Nat) = settlementIndex := by
  constructor
  · intro settles
    have fixed := τ.injective (rearranged.settlement (τ j) settles)
    rwa [fixed] at settles
  · intro settles
    rwa [rearranged.settlement j settles]

theorem realized_eq : Exact.realized t = Exact.realized s :=
  rearranged.moved_positions.sum fun _ _ => rfl

theorem accountValue_eq (collateral : Int) :
    Exact.accountValue t collateral = Exact.accountValue s collateral := by
  refine congrArg (collateral + ·) (rearranged.moved_positions.sum fun i p => ?_)
  show Exact.gain p (Exact.market t (σ i)) = Exact.gain p (Exact.market s i)
  rw [rearranged.market_eq]

theorem borrowed_eq (j : Fin s.collateralCount.toNat) (raw : Int) :
    Exact.borrowed t (Exact.realized t) (τ j) raw =
      Exact.borrowed s (Exact.realized s) j raw := by
  simp only [Exact.borrowed, Exact.balance, rearranged.price_eq, rearranged.asset_eq,
    rearranged.settles_iff, rearranged.realized_eq]

theorem requirement_eq (kind : FractionKind) (required : Requirements) :
    Exact.requirement t kind required = Exact.requirement s kind required := by
  refine congrArg₂ (· + ·) (rearranged.moved_positions.sum fun i p => ?_)
    (rearranged.moved_borrows.sum fun j raw => ?_)
  · simp only [rearranged.market_eq]
  · simp only [rearranged.asset_eq, rearranged.borrowed_eq]

theorem exposed_iff : Exact.Exposed t ↔ Exact.Exposed s := by
  refine or_congr (rearranged.moved_positions.exists_iff fun i p => ?_)
    (rearranged.moved_borrows.exists_iff fun j raw => ?_)
  · rw [rearranged.market_eq]
  · rw [rearranged.borrowed_eq]

theorem budget_eq (kind : FractionKind) (collateral : Int) :
    Exact.budget t kind collateral = Exact.budget s kind collateral := by
  simp only [Exact.budget, rearranged.accountValue_eq, rearranged.realized_eq]

theorem outcome_eq (kind : FractionKind) (collateral : Int) (required : Requirements) :
    Exact.outcome t kind collateral required = Exact.outcome s kind collateral required := by
  simp only [Exact.outcome, rearranged.exposed_iff, rearranged.budget_eq, rearranged.requirement_eq]

theorem collateral_eq : Exact.collateral t = Exact.collateral s := by
  refine congrArg (fun sum : Int => ⌊(sum : ℚ) / Fixed.scale⌋)
    (rearranged.moved_balances.sum fun j raw => ?_)
  simp only [rearranged.asset_eq, rearranged.price_eq]

variable {c c' : Int} {kind : FractionKind} {required : Requirements} {o o' : FractionOutcome}

theorem collateral_same (valued : s.collateral = .ok c) (valued' : t.collateral = .ok c') :
    c' = c := by
  rw [(collateral_eq_ok valued).1, (collateral_eq_ok valued').1, rearranged.collateral_eq]

theorem evaluate_same (checked : s.evaluate kind c required = .ok o)
    (checked' : t.evaluate kind c required = .ok o') : o' = o := by
  rw [(evaluate_exact _ _ _ _ _ checked).1, (evaluate_exact _ _ _ _ _ checked').1]
  exact rearranged.outcome_eq kind c required

end Rearranged

/-- The order of the slots is of no account for the weighted collateral of an account and for the
outcomes of its checks. -/
theorem verdict_rearranged (s : Snapshot) (accepted : s.violations = [])
    (σ : Equiv.Perm (Fin s.marketCount.toNat)) (τ : Equiv.Perm (Fin s.collateralCount.toNat))
    (settlement : ∀ j : Fin s.collateralCount.toNat, (j : Nat) = settlementIndex → τ j = j)
    (kind : FractionKind) (required : Requirements) {c c' : Int} {o o' : FractionOutcome}
    (valued : s.collateral = .ok c) (valued' : (s.rearrange σ τ).collateral = .ok c')
    (checked : s.evaluate kind c required = .ok o)
    (checked' : (s.rearrange σ τ).evaluate kind c' required = .ok o') : c' = c ∧ o' = o := by
  have rearranged := rearrange_rearranged accepted σ τ settlement
  obtain rfl := rearranged.collateral_same valued valued'
  exact ⟨rfl, rearranged.evaluate_same checked checked'⟩

/-- The sample with its long and its short position exchanged, and with the two assets exchanged that
profit does not settle in. -/
def exchanged : Snapshot :=
  sample.rearrange (Equiv.swap 0 2 : Equiv.Perm (Fin 4)) (Equiv.swap 1 2 : Equiv.Perm (Fin 3))

theorem verdict_rearranged_exchanged :
    sample.violations = [] ∧ sample.collateral = .ok 1838 ∧
    sample.evaluate .initial 1838 {} = .ok ⟨.initial, true, true, 1858000, 92934⟩ ∧
    ∃ c o, exchanged.collateral = .ok c ∧ exchanged.evaluate .initial c {} = .ok o ∧
      c = 1838 ∧ o = ⟨.initial, true, true, 1858000, 92934⟩ := by
  have accepted : sample.violations = [] := by cbv
  have settlement : ∀ j : Fin 3, (j : Nat) = settlementIndex → Equiv.swap 1 2 j = j := by decide
  have valued : sample.collateral = .ok 1838 := by cbv
  have valued' : exchanged.collateral = .ok 1838 := by cbv
  have checked :
      sample.evaluate .initial 1838 {} = .ok ⟨.initial, true, true, 1858000, 92934⟩ := by cbv
  have checked' : ∃ o, exchanged.evaluate .initial 1838 {} = .ok o := ⟨_, by cbv⟩
  obtain ⟨o, checked'⟩ := checked'
  have same := verdict_rearranged sample accepted _ _ settlement .initial {} valued valued' checked
    checked'
  exact ⟨accepted, valued, checked, 1838, o, valued', checked', same⟩

end Snapshot
end Solvency
