import Solvency.Exposure.Borrow
import Solvency.Proofs.SlotFaults

/-! Faults of valuation and of the fold over the borrows. Both fail for an active balance other than
zero: for its slot, its price or its weight, or for arithmetic that leaves its range. -/
namespace Solvency

variable {short : Prop}

theorem Accrual.apply_ends {a : Accrual} {raw : Int} (short_raw : short → Short raw)
    (supply : short → Short a.supply) (borrow : short → Short a.borrow) :
    Ends (ArithmeticFault short) Short (a.apply raw) := by
  unfold apply
  split
  · exact Fixed.mul_ends short_raw supply
  · exact Fixed.mul_ends short_raw borrow

theorem CollateralTerms.weighed_ends {c : CollateralTerms} {value : Int} (short_value : Short value)
    (weight : short → Short c.weight) : Ends (ArithmeticFault short) Short (c.weighed value) := by
  unfold weighed
  split
  · refine (Width.mul_ends (fun _ => short_value) weight).bind fun scaled held => ?_
    exact Ends.short (Width.div_ends (fun _ => held.short) (by decide))
  · exact short_value

namespace Snapshot

variable {s : Snapshot} {j : Nat} {raw : Int}

/-- The amount of an active balance after interest. -/
theorem apply_ends {c : CollateralSlot} (member : (j, raw) ∈ s.balances)
    (found : s.collateralAt j = .ok c) : Ends s.BalanceFault Short (c.accrual.apply raw) := by
  refine Ends.faults (P := ArithmeticFault s.ShortNumbers) ?_ fun _ => .arithmetic
  refine Accrual.apply_ends (balance_short member) ?_ ?_
  · exact fun numbers => (collateralAt_short found numbers).supply
  · exact fun numbers => (collateralAt_short found numbers).borrow

theorem balanceValue_ends {weighted : Bool} (member : (j, raw) ∈ s.balances) (nonzero : raw ≠ 0) :
    Ends s.BalanceFault Short (s.balanceValue weighted j raw) := by
  refine (collateralAt_ends member nonzero).bind fun c found => ?_
  refine (apply_ends member found).bind fun actual held => ?_
  refine (priceOf_ends member nonzero found).bind fun price short_price => ?_
  refine Ends.faults (P := ArithmeticFault s.ShortNumbers) ?_ fun _ => .arithmetic
  refine (Fixed.mul_ends (fun _ => held) short_price).bind fun value valued => ?_
  cases weighted with
  | false => exact valued
  | true =>
    exact CollateralTerms.weighed_ends valued fun numbers => (collateralAt_short found numbers).weight

theorem totalValue_ends {weighted : Bool} :
    Ends s.BalanceFault Short (s.totalValue weighted) := by
  have values : Ends s.BalanceFault (fun values => ∀ v ∈ values, Short v.2)
      (s.balanceValues weighted) := by
    refine Ends.results (Ends.mapM fun x member => ?_) fun _ => And.right
    obtain ⟨listed, nonzero⟩ := List.mem_filter.mp member
    refine (balanceValue_ends listed (by simpa using nonzero)).bind fun value valued => ?_
    exact valued
  refine values.bind fun values held => ?_
  refine Ends.faults (Width.sum_ends fun _ => ?_) fun _ => BalanceFault.arithmetic
  simpa using fun value j member => held (j, value) member

theorem collateral_ends : Ends s.BalanceFault Short s.collateral := by
  refine totalValue_ends.bind fun value held => ?_
  exact Ends.faults (Fixed.floor_ends fun _ => held) fun _ => .arithmetic

end Snapshot

/-- Both ratios are short. -/
structure Requirements.ShortNumbers (required : Requirements) : Prop where
  initial : Short required.initial
  maintenance : Short required.maintenance

namespace BorrowTotals

/-- All numbers of the totals are short. -/
structure ShortNumbers (b : BorrowTotals) : Prop where
  initialFactors : ∀ f ∈ b.initialFactors, Short f
  maintenanceFactors : ∀ f ∈ b.maintenanceFactors, Short f
  notionals : ∀ n ∈ b.notionals, Short n

theorem ShortNumbers.add {b : BorrowTotals} {notional : Int} {factors : Option Int × Option Int}
    (totals : b.ShortNumbers) (short_notional : Short notional)
    (initial : ∀ f ∈ factors.1, Short f) (maintenance : ∀ f ∈ factors.2, Short f) :
    (b.add notional factors).ShortNumbers where
  initialFactors := List.forall_mem_append.mpr ⟨totals.initialFactors, by simpa using initial⟩
  maintenanceFactors :=
    List.forall_mem_append.mpr ⟨totals.maintenanceFactors, by simpa using maintenance⟩
  notionals := List.forall_mem_append.mpr ⟨totals.notionals, by simpa using short_notional⟩

end BorrowTotals

namespace Snapshot

variable {s : Snapshot} {j : Nat} {raw realized requirement : Int} {wanted : FactorChoice}
  {required : Requirements} {c : CollateralSlot}

/-- The factor of a borrow; it has none in an asset without weight. -/
theorem spot_ends (member : (j, raw) ∈ s.balances) (owed : raw < 0)
    (found : s.collateralAt j = .ok c) (ratio : Short requirement) :
    Ends s.BalanceFault Short (Factor.spot requirement c.terms.weight) := by
  by_cases zero : c.terms.weight = 0
  · rw [zero]
    have fault : s.BalanceFault (.margin (.divisionByZero (.within .i64) requirement)) :=
      .weightless member owed found zero requirement
    refine Ends.bind (Q := fun _ => False) (Ends.fail fault fun refused => absurd ?_ refused) ?_
    · simpa [Fault.cited, MarginFault.cited] using ratio.writable
    · exact fun _ => False.elim
  · exact Ends.faults (Factor.spot_ends (fun _ => ratio) zero) fun _ => .arithmetic

theorem borrowFactors_ends (member : (j, raw) ∈ s.balances) (owed : raw < 0)
    (found : s.collateralAt j = .ok c) (ratios : required.ShortNumbers) :
    Ends s.BalanceFault (fun factors => (∀ f ∈ factors.1, Short f) ∧ ∀ f ∈ factors.2, Short f)
      (c.terms.borrowFactors wanted required) := by
  have factor {requirement : Int} (ratio : Short requirement) :
      Ends s.BalanceFault (fun factor => ∀ f ∈ factor, Short f)
        (some <$> Factor.spot requirement c.terms.weight) :=
    (spot_ends member owed found ratio).map fun f held => by simpa using held
  have none_short : ∀ f ∈ (none : Option Int), Short f := by simp
  have rest (initial : Option Int) (initials : ∀ f ∈ initial, Short f) :
      Ends s.BalanceFault (fun factors => (∀ f ∈ factors.1, Short f) ∧ ∀ f ∈ factors.2, Short f)
        (if wanted.hasMaintenance then
          some <$> Factor.spot required.maintenance c.terms.weight >>= fun f => pure (initial, f)
        else pure (initial, none)) := by
    split
    · exact (factor ratios.maintenance).bind fun maintenance maintenances => ⟨initials, maintenances⟩
    · exact ⟨initials, none_short⟩
  simp only [CollateralTerms.borrowFactors, pure_bind]
  by_cases asked : (wanted.hasInitial || wanted.hasCancel) = true
  · rw [if_pos asked]
    exact (factor ratios.initial).bind rest
  · rw [if_neg asked]
    exact rest none none_short

/-- The price of a debt, rounded up. -/
theorem priced_ends {debt : Int} (member : (j, raw) ∈ s.balances) (nonzero : raw ≠ 0)
    (found : s.collateralAt j = .ok c) (short_debt : Short debt) :
    Ends s.BalanceFault Short (do
      let price ← s.priceOf c.terms.feed
      let value ← Fixed.mulCeil price (-debt)
      let units ← Fixed.ceil value
      pure (max 0 units)) := by
  refine (priceOf_ends member nonzero found).bind fun price short_price => ?_
  refine Ends.faults (P := ArithmeticFault s.ShortNumbers) ?_ fun _ => .arithmetic
  refine (Fixed.mulCeil_ends short_price fun _ => short_debt.neg).bind fun value valued => ?_
  refine (Fixed.ceil_ends fun _ => valued).bind fun units short_units => ?_
  exact short_zero.max short_units

theorem borrowNotional_ends (member : (j, raw) ∈ s.balances) (owed : raw < 0)
    (found : s.collateralAt j = .ok c) (short_realized : Short realized) :
    Ends s.BalanceFault Short (s.borrowNotional c realized j raw) := by
  refine (apply_ends member found).bind fun debt held => ?_
  split
  · have lifted : Ends s.BalanceFault Short (Fixed.ofInt realized) :=
      Ends.faults (Fixed.ofInt_ends fun _ => short_realized) fun _ => .arithmetic
    refine lifted.bind fun settled lifted => ?_
    have added : Ends s.BalanceFault Width.i128.Holds (Width.i128.add debt settled) :=
      Ends.faults (Width.add_ends (fun _ => held) fun _ => lifted) fun _ => .arithmetic
    refine added.bind fun debt added => ?_
    exact priced_ends member owed.ne found added.short
  · exact priced_ends member owed.ne found held

theorem borrowTotals_ends (short_realized : Short realized) (ratios : required.ShortNumbers) :
    Ends s.BalanceFault BorrowTotals.ShortNumbers (s.borrowTotals realized wanted required) := by
  have start : BorrowTotals.ShortNumbers {} := ⟨by simp, by simp, by simp⟩
  refine Ends.foldlM start fun b x member totals => ?_
  obtain ⟨listed, negative⟩ := List.mem_filter.mp member
  have owed : x.2 < 0 := by simpa using negative
  refine (collateralAt_ends listed owed.ne).bind fun c found => ?_
  refine (borrowNotional_ends listed owed found short_realized).bind fun notional held => ?_
  refine (borrowFactors_ends listed owed found ratios).bind fun factors ⟨initial, maintenance⟩ => ?_
  exact totals.add held initial maintenance

end Snapshot
end Solvency
