import Mathlib.Data.List.Forall2
import Solvency.Proofs.Comparison

/-! Two accounts as a whole. One that is at least as good as another in every slot is worth at least
as much, is asked for no more, and passes whatever the other one passes. -/
namespace Solvency

section Lists

variable {α β : Type} {R : α → β → Prop} {xs : List α} {ys : List β}

theorem forall₂_with_mem (related : List.Forall₂ R xs ys) :
    List.Forall₂ (fun x y => R x y ∧ x ∈ xs ∧ y ∈ ys) xs ys := by
  obtain ⟨same_length, zipped⟩ := List.forall₂_iff_zip.mp related
  exact List.forall₂_iff_zip.mpr
    ⟨same_length, fun member => ⟨zipped member, List.of_mem_zip member⟩⟩

theorem exists_left_of_mem (related : List.Forall₂ R xs ys) {y : β} (member : y ∈ ys) :
    ∃ x ∈ xs, R x y := by
  induction related with
  | nil => cases member
  | cons first _ ih =>
    rcases List.mem_cons.mp member with rfl | later
    · exact ⟨_, List.mem_cons_self, first⟩
    · obtain ⟨x, listed, rel⟩ := ih later
      exact ⟨x, List.mem_cons_of_mem _ listed, rel⟩

theorem sum_le_of_forall₂ {f : α → Int} {g : β → Int}
    (le : List.Forall₂ (fun x y => f x ≤ g y) xs ys) : (xs.map f).sum ≤ (ys.map g).sum := by
  apply List.Forall₂.sum_le_sum
  rwa [List.forall₂_map_left_iff, List.forall₂_map_right_iff]

/-- Items that are kept have partners that are kept. -/
theorem sublistForall₂_filter {S : β → α → Prop} {p : α → Bool} {q : β → Bool}
    (kept : ∀ x y, R x y → q y = true → p x = true ∧ S y x) (related : List.Forall₂ R xs ys) :
    List.SublistForall₂ S (ys.filter q) (xs.filter p) := by
  induction related with
  | nil => exact .nil
  | @cons x y _ _ first _ ih =>
    by_cases left : q y = true
    · obtain ⟨right, rel⟩ := kept x y first left
      rw [List.filter_cons_of_pos left, List.filter_cons_of_pos right]
      exact .cons rel ih
    · rw [List.filter_cons_of_neg left]
      by_cases right : p x = true
      · rw [List.filter_cons_of_pos right]
        exact .cons_right ih
      · rwa [List.filter_cons_of_neg right]

end Lists

namespace Exact

variable {s t : Snapshot}

/-- Slot by slot, the second account is at least as good as the first. -/
structure Dominated (s t : Snapshot) : Prop where
  positions : List.Forall₂ (PositionDominated s t) s.positions t.positions
  balances : List.Forall₂ (BalanceDominated s t) s.balances t.balances

section Totals

variable (dominated : Dominated s t)

include dominated

theorem Dominated.realized_le : realized s ≤ realized t :=
  sum_le_of_forall₂ (dominated.positions.imp fun _ _ slot => slot.improved.realized)

theorem Dominated.accountValue_le {c c' : Int} (collateral : c ≤ c') :
    accountValue s c ≤ accountValue t c' := by
  refine add_le_add collateral (sum_le_of_forall₂ (dominated.positions.imp fun x y slot => ?_))
  change gain x.2 (market s x.1) ≤ gain y.2 (market t y.1)
  rw [slot.index]
  exact gain_mono slot.improved slot.relaxed

theorem Dominated.budget_le (kind : FractionKind) {c c' : Int} (collateral : c ≤ c') :
    budget s kind c ≤ budget t kind c' := by
  have value := dominated.accountValue_le collateral
  have realized := dominated.realized_le
  cases kind <;> simp only [budget, oneWhole] <;> omega

theorem Dominated.collateral_le (left : ∀ x ∈ s.balances, x.2 ≠ 0 → Sound s x.1)
    (right : ∀ y ∈ t.balances, y.2 ≠ 0 → Sound t y.1) : collateral s ≤ collateral t := by
  have values : List.Forall₂ (fun x y : Nat × Int =>
      valued (asset s x.1) (price s x.1) x.2 ≤ valued (asset t y.1) (price t y.1) y.2)
      s.balances t.balances := by
    refine (forall₂_with_mem dominated.balances).imp ?_
    rintro x y ⟨slot, member, member'⟩
    have same := slot.index
    rw [same]
    exact valued_mono slot (left x member) fun nonzero => same ▸ right y member' nonzero
  have sums := sum_le_of_forall₂ values
  have scale := scale_pos
  unfold collateral
  gcongr

/-- Whatever exposes the better account exposes the other one. -/
theorem Dominated.exposed (right : ∀ y ∈ borrows t, Sound t y.1) (exposed : Exposed t) :
    Exposed s := by
  rcases exposed with ⟨y, member, positive⟩ | ⟨y, member, positive⟩
  · obtain ⟨x, listed, slot⟩ := exists_left_of_mem dominated.positions member
    have same := notional_same .initial slot.improved (market s x.1).mark
    rw [slot.index, slot.relaxed.mark] at positive
    exact .inl ⟨x, listed, positive.trans_eq same⟩
  · obtain ⟨balance, owed⟩ := Snapshot.mem_borrows.mp member
    obtain ⟨x, listed, slot⟩ := exists_left_of_mem dominated.balances balance
    have sound : Sound t x.1 := slot.index ▸ right y member
    have smaller := borrowed_mono slot owed sound dominated.realized_le
    rw [slot.index] at positive
    have borrow : x ∈ borrows s :=
      Snapshot.mem_borrows.mpr ⟨listed, slot.raw.trans_lt owed⟩
    exact .inr ⟨x, borrow, positive.trans_le smaller⟩

/-- Slot by slot, what the positions of the better account are asked for is no more. -/
theorem Dominated.weighed_le (kind : FractionKind) (accepted : s.violations = []) :
    (t.positions.map fun (i, p) => marketFactor kind (market t i).terms.baseFactor *
      notional kind p (market t i).mark).sum ≤
    (s.positions.map fun (i, p) => marketFactor kind (market s i).terms.baseFactor *
      notional kind p (market s i).mark).sum := by
  refine sum_le_of_forall₂ ((forall₂_with_mem dominated.positions).imp ?_).flip
  rintro x y ⟨slot, member, _⟩
  obtain ⟨bids, _, asks, _⟩ := Snapshot.orders_of_accepted accepted member
  exact weighed_mono kind slot bids asks

end Totals

section Borrows

variable {kind : FractionKind} {required required' : Requirements} {x y : Nat × Int}

/-- What a borrow adds to the requirement. -/
def charge (s : Snapshot) (kind : FractionKind) (required : Requirements) (x : Nat × Int) : Int :=
  assetFactor kind required (asset s x.1).terms.weight * borrowed s (realized s) x.1 x.2

/-- The asset of a borrow is sound and its factor is no discount. -/
structure Chargeable (s : Snapshot) (kind : FractionKind) (required : Requirements) (j : Nat) :
    Prop where
  sound : Sound s j
  factor : 0 ≤ assetFactor kind required (asset s j).terms.weight

theorem Chargeable.charge_nonneg (chargeable : Chargeable s kind required x.1) :
    0 ≤ charge s kind required x := mul_nonneg chargeable.factor (le_max_left _ _)

/-- A factor that is no discount comes of a positive ratio, which a lower weight can only raise. -/
theorem assetFactor_le {weight weight' : Int} (ratios : ratio kind required' ≤ ratio kind required)
    (weights : weight ≤ weight') (positive : 0 < weight)
    (nonneg : 0 ≤ assetFactor kind required' weight') :
    assetFactor kind required' weight' ≤ assetFactor kind required weight := by
  have whole : (0 : ℚ) < weight := by exact_mod_cast positive
  have heavier : (weight : ℚ) ≤ weight' := by exact_mod_cast weights
  have asked : (ratio kind required' : ℚ) ≤ ratio kind required := by exact_mod_cast ratios
  have asks : (0 : ℚ) ≤ ratio kind required := by
    by_contra negative
    have quotient : (ratio kind required' / weight' : ℚ) ≤ 0 :=
      div_nonpos_of_nonpos_of_nonneg (by linarith) (by linarith)
    have rounded : ⌈(ratio kind required' / weight' : ℚ)⌉ ≤ 0 := by
      rw [Int.ceil_le, Int.cast_zero]
      exact quotient
    simp only [assetFactor, oneWhole] at nonneg
    omega
  exact sub_le_sub_right (Int.ceil_mono (div_le_div₀ asks asked whole heavier)) _

theorem charge_mono (slot : BalanceDominated s t x y) (debt : y.2 < 0)
    (settled : realized s ≤ realized t) (ratios : ratio kind required' ≤ ratio kind required)
    (left : Chargeable s kind required x.1) (right : Chargeable t kind required' y.1) :
    charge t kind required' y ≤ charge s kind required x := by
  have same := slot.index
  unfold charge
  rw [same] at right ⊢
  have weights := (slot.relaxed (.inr debt)).weight
  exact mul_le_mul (assetFactor_le ratios weights left.sound.weight right.factor)
    (borrowed_mono slot debt right.sound settled) (le_max_left _ _) left.factor

/-- A borrow that the better account does not have any more counted against the other one. -/
theorem Dominated.charged_le (dominated : Dominated s t)
    (ratios : ratio kind required' ≤ ratio kind required)
    (left : ∀ x ∈ borrows s, Chargeable s kind required x.1)
    (right : ∀ y ∈ borrows t, Chargeable t kind required' y.1) :
    ((borrows t).map (charge t kind required')).sum ≤
      ((borrows s).map (charge s kind required)).sum := by
  have paired : List.SublistForall₂ (fun y x => charge t kind required' y ≤ charge s kind required x)
      (borrows t) (borrows s) := by
    refine sublistForall₂_filter ?_ (forall₂_with_mem dominated.balances)
    rintro x y ⟨slot, member, member'⟩ owed
    have debt : y.2 < 0 := by simpa using owed
    have debt' : decide (x.2 < 0) = true := by simpa using slot.raw.trans_lt debt
    exact ⟨debt', charge_mono slot debt dominated.realized_le ratios
      (left x (List.mem_filter.mpr ⟨member, debt'⟩)) (right y (List.mem_filter.mpr ⟨member', owed⟩))⟩
  refine List.SublistForall₂.sum_le_sum ?_ ?_
  · rwa [List.sublistForall₂_map_left_iff, List.sublistForall₂_map_right_iff]
  · intro amount listed
    obtain ⟨x, member, rfl⟩ := List.mem_map.mp listed
    exact (left x member).charge_nonneg

theorem Dominated.requirement_le (dominated : Dominated s t) (accepted : s.violations = [])
    (ratios : ratio kind required' ≤ ratio kind required)
    (left : ∀ x ∈ borrows s, Chargeable s kind required x.1)
    (right : ∀ y ∈ borrows t, Chargeable t kind required' y.1) :
    requirement t kind required' ≤ requirement s kind required :=
  add_le_add (dominated.weighed_le kind accepted) (dominated.charged_le ratios left right)

end Borrows

end Exact

/-- The factor of a borrow is stored in a range without negative numbers. -/
theorem Factor.spot_nonneg {requirement weight r : Int} (done : spot requirement weight = .ok r) :
    0 ≤ r := by
  obtain ⟨_, _, ⟨nonneg, _⟩, _⟩ := spot_eq_ok.mp done
  simpa [Width.lo] using nonneg

theorem CollateralTerms.factor_nonneg {c : CollateralTerms} {kind : FractionKind}
    {required : Requirements} {factors : Option Int × Option Int}
    (done : c.borrowFactors kind.factors required = .ok factors) :
    0 ≤ Exact.assetFactor kind required c.weight := by
  cases kind
  all_goals
    simp only [borrowFactors, FractionKind.factors, FactorChoice.hasInitial, FactorChoice.hasCancel,
      FactorChoice.hasMaintenance, bind_eq_ok, map_eq_ok, Bool.or_false, Bool.or_true,
      Bool.false_eq_true, if_true, if_false] at done
  case maintenance =>
    obtain ⟨_, _, _, ⟨factor, spot, _⟩, _⟩ := done
    exact (Factor.spot_nonneg spot).trans_eq (Factor.spot_eq_ok.mp spot).2.2.2
  all_goals
    obtain ⟨_, ⟨factor, spot, _⟩, _⟩ := done
    exact (Factor.spot_nonneg spot).trans_eq (Factor.spot_eq_ok.mp spot).2.2.2

namespace Snapshot

variable {s t : Snapshot} {kind : FractionKind} {required required' : Requirements}

theorem factor_nonneg_of_borrowTotals {realized : Int} {b : BorrowTotals}
    (done : s.borrowTotals realized kind.factors required = .ok b) : ∀ x ∈ Exact.borrows s,
      0 ≤ Exact.assetFactor kind required (Exact.asset s x.1).terms.weight := by
  refine forall_of_foldlM (fun b b' x _ step => ?_) done
  obtain ⟨c, found, step⟩ := bind_eq_ok.mp step
  obtain ⟨_, _, step⟩ := bind_eq_ok.mp step
  obtain ⟨factors, factored, _⟩ := bind_eq_ok.mp step
  obtain rfl := collateralAt_exact found
  exact CollateralTerms.factor_nonneg factored

theorem chargeable_of_evaluate {collateral : Int} {o : FractionOutcome}
    (accepted : s.violations = []) (done : s.evaluate kind collateral required = .ok o) :
    ∀ x ∈ Exact.borrows s, Exact.Chargeable s kind required x.1 := by
  obtain ⟨perp, _, rest⟩ := bind_eq_ok.mp done
  obtain ⟨spot, borrowed, _⟩ := bind_eq_ok.mp rest
  intro x member
  have balance := (mem_borrows.mp member).1
  exact ⟨(priced_of_borrowTotals borrowed x member).valued.sound accepted balance,
    factor_nonneg_of_borrowTotals borrowed x member⟩

theorem sound_of_collateral {collateral : Int} (accepted : s.violations = [])
    (valued : s.collateral = .ok collateral) :
    ∀ x ∈ s.balances, x.2 ≠ 0 → Exact.Sound s x.1 := fun x member nonzero =>
  ((collateral_eq_ok valued).2 x member nonzero).sound accepted member

/-- An account that is at least as good in every slot passes every check that the other one passes,
also where less is required of it. -/
theorem meetsOwn_of_dominated (accepted : s.violations = []) (accepted' : t.violations = [])
    (ratios : Exact.ratio kind required' ≤ Exact.ratio kind required)
    (dominated : Exact.Dominated s t) {passes : Bool}
    (passed : s.meetsOwn kind required = .ok true) (done : t.meetsOwn kind required' = .ok passes) :
    passes = true := by
  obtain ⟨c, valued, passed⟩ := bind_eq_ok.mp passed
  obtain ⟨o, checked, passed⟩ := bind_eq_ok.mp passed
  obtain ⟨c', valued', done⟩ := bind_eq_ok.mp done
  obtain ⟨o', checked', done⟩ := bind_eq_ok.mp done
  obtain rfl : o'.passed = passes := Except.ok.inj done
  have collateral : c ≤ c' := by
    rw [(collateral_eq_ok valued).1, (collateral_eq_ok valued').1]
    exact dominated.collateral_le (sound_of_collateral accepted valued)
      (sound_of_collateral accepted' valued')
  have left := chargeable_of_evaluate accepted checked
  have right := chargeable_of_evaluate accepted' checked'
  by_cases exposed' : Exact.Exposed t
  · have exposed : Exact.Exposed s :=
      dominated.exposed (fun y member => (right y member).sound) exposed'
    obtain rfl := evaluate_exposed checked exposed
    obtain rfl := evaluate_exposed checked' exposed'
    have asked := dominated.requirement_le accepted ratios left right
    have allowed := dominated.budget_le kind collateral
    have met : Exact.requirement s kind required < Exact.budget s kind c := by
      simpa using Except.ok.inj passed
    simpa using (asked.trans_lt met).trans_le allowed
  · -- An account without exposure is asked for nothing.
    rw [evaluate_unexposed checked' exposed']

end Snapshot
end Solvency
