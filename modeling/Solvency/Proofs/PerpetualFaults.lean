import Solvency.Proofs.Overflow
import Solvency.Proofs.Perpetual

/-! Faults of the fold over the positions. Beside arithmetic that leaves its range, a position fails
for want of a market slot, or because its funding index has a negative number of decimals. -/
namespace Solvency

variable {short : Prop}

/-- How an amount of funding may fail to be one in quote units. -/
inductive FundingFault (short : Prop) (decimals : Int) : Fault → Prop where
  | arithmetic {f : Fault} (fault : ArithmeticFault short f) : FundingFault short decimals f
  | vanished (negative : decimals < 0) (owed : Int) :
      FundingFault short decimals (.margin (.divisionByZero (.within .i128) owed))
  | fraction (negative : decimals < 0) : FundingFault short decimals (.notInteger "float")
  | unbounded (negative : decimals < 0) : FundingFault short decimals .floatRange

theorem FundingFault.arithmetic_of_nonneg {decimals : Int} {f : Fault} (nonneg : 0 ≤ decimals)
    (fault : FundingFault short decimals f) : ArithmeticFault short f := by
  cases fault with
  | arithmetic fault => exact fault
  | vanished | fraction | unbounded => omega

theorem fundingUnits_ends {owed decimals : Int} (short_owed : Short owed) :
    Ends (FundingFault short decimals) Short (fundingUnits owed decimals) := by
  unfold fundingUnits
  split
  · have unit : (tenTo decimals.toNat : Int) ≠ 0 := by
      exact_mod_cast (Nat.pow_pos (by decide : 0 < 10)).ne'
    refine Ends.faults (P := ArithmeticFault short) ?_ fun _ => .arithmetic
    refine (Width.div_ends (fun _ => short_owed) unit).bind fun quotient held => ?_
    exact Ends.short (Width.check_ends fun _ => held.short.writable)
  · rename_i negative
    have negative : decimals < 0 := not_le.mp negative
    split
    · exact Ends.fail (.unbounded negative) (by simp [Fault.cited])
    · split
      · refine Ends.fail (.vanished negative owed) fun refused => absurd ?_ refused
        simpa [Fault.cited, MarginFault.cited] using short_owed.writable
      · exact Ends.fail (.fraction negative) (by simp [Fault.cited])

theorem notional_ends {units mark : Int} (short_units : short → Short units)
    (short_mark : short → Short mark) :
    Ends (ArithmeticFault short) Short (notional units mark) := by
  refine (Fixed.ofInt_ends short_units).bind fun lifted held => ?_
  refine (Fixed.mul_ends (fun _ => held) short_mark).bind fun value valued => ?_
  exact Fixed.ceil_ends fun _ => valued

/-- All numbers of a position are short. -/
structure Position.ShortNumbers (p : Position) : Prop where
  size : Short p.size
  quoteTotal : Short p.quoteTotal
  realized : Short p.realized
  bids : Short p.bids
  asks : Short p.asks
  funding : Short p.funding

/-- All numbers of a market slot that a position is valued by are short. -/
structure MarketSlot.ShortNumbers (m : MarketSlot) : Prop where
  baseFactor : Short m.terms.baseFactor
  mark : Short m.mark
  funding : Short m.funding

namespace Position

variable {p : Position} {m : MarketSlot} {mark value : Int}

theorem accruedFunding_ends (position : short → p.ShortNumbers) (market : short → m.ShortNumbers) :
    Ends (FundingFault short m.terms.decimals) Short (p.accruedFunding m) := by
  have difference : Ends (ArithmeticFault short) Width.i128.Holds
      (Width.i128.sub m.funding p.funding) :=
    Width.sub_ends (fun holds => (market holds).funding) fun holds => (position holds).funding
  refine (difference.faults fun _ => .arithmetic).bind fun difference held => ?_
  have product : Ends (ArithmeticFault short) Width.i128.Holds
      (Width.i128.mul p.size (-difference)) :=
    Width.mul_ends (fun holds => (position holds).size) fun _ => held.short.neg
  refine (product.faults fun _ => .arithmetic).bind fun owed held => ?_
  exact fundingUnits_ends held.short

theorem profit_ends (position : short → p.ShortNumbers) (short_mark : short → Short mark) :
    Ends (ArithmeticFault short) Short (p.profit mark) := by
  have quote : short → Short p.quoteTotal := fun holds => (position holds).quoteTotal
  unfold profit
  split
  · refine (Fixed.ofInt_ends fun holds => (position holds).size).bind fun units lifted => ?_
    refine (Fixed.mul_ends (fun _ => lifted) short_mark).bind fun value valued => ?_
    refine (Fixed.floor_ends fun _ => valued).bind fun value floored => ?_
    exact Ends.short (Width.sub_ends (fun _ => floored) fun holds => (quote holds).neg)
  · refine (Fixed.ofInt_ends fun holds => (position holds).size.neg).bind fun units lifted => ?_
    refine (Fixed.mul_ends (fun _ => lifted) short_mark).bind fun owed valued => ?_
    refine (Fixed.floor_ends fun _ => valued).bind fun owed floored => ?_
    exact Ends.short (Width.sub_ends quote fun _ => floored)

/-- Only a position with a size can fail for its funding. -/
theorem addedTo_ends (position : short → p.ShortNumbers) (market : short → m.ShortNumbers)
    (short_value : Short value) :
    Ends (fun f => ArithmeticFault short f ∨ p.size ≠ 0 ∧ FundingFault short m.terms.decimals f)
      Short (p.addedTo m value) := by
  have realized : short → Short p.realized := fun holds => (position holds).realized
  unfold addedTo
  split
  · exact Ends.faults (Ends.short (Width.add_ends (fun _ => short_value) realized)) fun _ => .inl
  · rename_i sized
    have accrued := accruedFunding_ends position market
    refine (accrued.faults fun _ fault => .inr ⟨sized, fault⟩).bind fun funding short_funding => ?_
    refine Ends.faults (P := ArithmeticFault short) ?_ fun _ => .inl
    refine (profit_ends position fun holds => (market holds).mark).bind fun profit short_profit => ?_
    refine Width.sum_ends fun holds => ?_
    simpa using ⟨short_value, realized holds, short_profit, short_funding⟩

theorem heldNotional_ends (position : short → p.ShortNumbers) (short_mark : short → Short mark) :
    Ends (ArithmeticFault short) Short (p.heldNotional mark) :=
  notional_ends (fun holds => (position holds).size.natAbs) short_mark

theorem filledNotional_ends (position : short → p.ShortNumbers) (short_mark : short → Short mark) :
    Ends (ArithmeticFault short) Short (p.filledNotional mark) := by
  have size : short → Short p.size := fun holds => (position holds).size
  refine (Width.add_ends size fun holds => (position holds).bids).bind fun long held_long => ?_
  refine (Width.sub_ends size fun holds => (position holds).asks).bind fun sold held_sold => ?_
  refine notional_ends (fun _ => ?_) short_mark
  rw [Nat.cast_max]
  exact held_long.short.natAbs.max held_sold.short.natAbs

end Position

theorem appended_ends {wanted : Bool} {factors : List Int} {factor : Except Fault Int}
    (entries : ∀ f ∈ factors, Short f) (ends : Ends (ArithmeticFault short) Short factor) :
    Ends (ArithmeticFault short) (fun fs => ∀ f ∈ fs, Short f)
      (appended wanted factors factor) := by
  cases wanted with
  | false => exact entries
  | true =>
    refine ends.bind fun f held => ?_
    exact List.forall_mem_append.mpr ⟨entries, by simpa using held⟩

namespace PerpTotals

/-- All numbers of the totals are short. -/
structure ShortNumbers (t : PerpTotals) : Prop where
  accountValue : Short t.accountValue
  realized : Short t.realized
  initialFactors : ∀ f ∈ t.initialFactors, Short f
  maintenanceFactors : ∀ f ∈ t.maintenanceFactors, Short f
  cancelFactors : ∀ f ∈ t.cancelFactors, Short f
  filledNotionals : ∀ n ∈ t.filledNotionals, Short n
  heldNotionals : ∀ n ∈ t.heldNotionals, Short n

variable {t : PerpTotals} {p : Position} {m : MarketSlot} {wanted : FactorChoice}

theorem add_ends (position : short → p.ShortNumbers) (market : short → m.ShortNumbers)
    (totals : t.ShortNumbers) :
    Ends (fun f => ArithmeticFault short f ∨ p.size ≠ 0 ∧ FundingFault short m.terms.decimals f)
      ShortNumbers (t.add p m wanted) := by
  have mark : short → Short m.mark := fun holds => (market holds).mark
  refine (Position.addedTo_ends position market totals.accountValue).bind fun value valued => ?_
  refine Ends.faults (P := ArithmeticFault short) ?_ fun _ => .inl
  refine (Position.heldNotional_ends position mark).bind fun held short_held => ?_
  refine (Position.filledNotional_ends position mark).bind fun filled short_filled => ?_
  refine (Width.check_ends fun holds => (market holds).baseFactor.writable).bind fun base fits => ?_
  have own : Ends (ArithmeticFault short) Short (pure base) := fits.short
  refine (appended_ends totals.initialFactors own).bind fun initial initials => ?_
  refine (appended_ends totals.maintenanceFactors
    (Factor.maintenance_ends fun _ => fits.short)).bind fun maintenance maintenances => ?_
  refine (appended_ends totals.cancelFactors
    (Factor.cancel_ends fun _ => fits.short)).bind fun cancel cancels => ?_
  refine (Width.add_ends (fun _ => totals.realized)
    fun holds => (position holds).realized).bind fun realized short_realized => ?_
  exact {
    accountValue := valued
    realized := short_realized.short
    initialFactors := initials
    maintenanceFactors := maintenances
    cancelFactors := cancels
    filledNotionals :=
      List.forall_mem_append.mpr ⟨totals.filledNotionals, by simpa using short_filled⟩
    heldNotionals := List.forall_mem_append.mpr ⟨totals.heldNotionals, by simpa using short_held⟩ }

end PerpTotals
end Solvency
