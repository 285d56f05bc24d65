import Solvency.Proofs.AssessmentFaults

/-! Funding without a unit. A negative number of decimals makes the unit of a funding index a fraction.
Assessing an account fails for one exactly if it reaches, while it adds up the positions, one that
has such funding to settle; validation refuses the account before. -/
namespace Solvency

/-- The quotient by a negative power of ten is no integer, or its exponent is too large to be
tried. -/
def Fault.Fractional : Fault → Prop
  | .notInteger _ | .floatRange => True
  | _ => False

theorem ArithmeticFault.not_fractional {short : Prop} {f : Fault} (fault : ArithmeticFault short f) :
    ¬ f.Fractional := by
  cases fault <;> exact id

theorem Snapshot.MarketFault.not_fractional {s : Snapshot} {f : Fault} (fault : s.MarketFault f) :
    ¬ f.Fractional := by
  cases fault with
  | arithmetic fault => exact fault.not_fractional
  | noEntry | empty => exact id

theorem Snapshot.BalanceFault.not_fractional {s : Snapshot} {f : Fault} (fault : s.BalanceFault f) :
    ¬ f.Fractional := by
  cases fault with
  | arithmetic fault => exact fault.not_fractional
  | noEntry | empty | unpriced | weightless => exact id

theorem FundingFault.negative {short : Prop} {decimals : Int} {f : Fault}
    (fractional : f.Fractional) (fault : FundingFault short decimals f) : decimals < 0 := by
  by_contra nonneg
  exact (fault.arithmetic_of_nonneg (not_lt.mp nonneg)).not_fractional fractional

/-- Decimals are negative, and not so small that a unit of them counts as zero. -/
def LacksUnit (decimals : Int) : Prop :=
  decimals < 0 ∧ (-324 < decimals ∨ exponentLimit ≤ -decimals)

theorem lacksUnit_of_fractional {owed decimals : Int} {f : Fault} (short_owed : Short owed)
    (fractional : f.Fractional) (failed : fundingUnits owed decimals = .error f) :
    LacksUnit decimals := by
  have ends : Ends (FundingFault True decimals) Short (fundingUnits owed decimals) :=
    fundingUnits_ends short_owed
  have negative := (ends.fault failed).negative fractional
  refine ⟨negative, ?_⟩
  rw [fundingUnits, if_neg (not_le.mpr negative)] at failed
  split at failed
  · exact .inr ‹_›
  · split at failed
    · have vanished : Ends (fun f => ¬ f.Fractional) (fun _ : Int => True)
          (fail (.margin (.divisionByZero (.within .i128) owed))) := Ends.fail id fun _ => id
      exact absurd fractional (vanished.fault failed)
    · left
      omega

theorem LacksUnit.fractional {decimals : Int} (lacks : LacksUnit decimals) (owed : Int) :
    ∃ f : Fault, f.Fractional ∧ fundingUnits owed decimals = .error f := by
  obtain ⟨negative, exponent⟩ := lacks
  rw [fundingUnits, if_neg (not_le.mpr negative)]
  by_cases unbounded : exponentLimit ≤ -decimals
  · rw [if_pos unbounded]
    exact ⟨.floatRange, trivial, rfl⟩
  · rw [if_neg unbounded, if_neg (by omega)]
    exact ⟨.notInteger "float", trivial, rfl⟩

/-- An amount of funding of the position is in range and has no unit in the market. -/
structure Position.Unitless (p : Position) (m : MarketSlot) : Prop where
  sized : p.size ≠ 0
  difference : Width.i128.Holds (m.funding - p.funding)
  owed : Width.i128.Holds (p.size * -(m.funding - p.funding))
  decimals : LacksUnit m.terms.decimals

namespace Position

variable {p : Position} {m : MarketSlot} {f : Fault}

theorem unitless_of_accruedFunding (sized : p.size ≠ 0) (fractional : f.Fractional)
    (failed : p.accruedFunding m = .error f) : p.Unitless m := by
  have refused {w : Width} {v : Int} (out : w.check v = .error f) : False := by
    have ends : Ends (ArithmeticFault False) w.Holds (w.check v) := Width.check_ends False.elim
    exact (ends.fault out).not_fractional fractional
  rcases bind_eq_error.mp failed with out | ⟨_, difference, failed⟩
  · exact (refused out).elim
  · obtain ⟨difference, rfl⟩ := Width.sub_eq_ok.mp difference
    rcases bind_eq_error.mp failed with out | ⟨_, owed, failed⟩
    · exact (refused out).elim
    · obtain ⟨owed, rfl⟩ := Width.mul_eq_ok.mp owed
      exact ⟨sized, difference, owed, lacksUnit_of_fractional owed.short fractional failed⟩

theorem Unitless.accruedFunding (unitless : p.Unitless m) :
    ∃ f : Fault, f.Fractional ∧ p.accruedFunding m = .error f := by
  obtain ⟨f, fractional, failed⟩ :=
    unitless.decimals.fractional (p.size * -(m.funding - p.funding))
  refine ⟨f, fractional, ?_⟩
  rw [Position.accruedFunding, bind_eq_error]
  refine .inr ⟨_, Width.sub_eq_ok.mpr ⟨unitless.difference, rfl⟩, ?_⟩
  rw [bind_eq_error]
  exact .inr ⟨_, Width.mul_eq_ok.mpr ⟨unitless.owed, rfl⟩, failed⟩

end Position

namespace Snapshot

variable {s : Snapshot} {wanted : FactorChoice} {t : PerpTotals} {x : Nat × Position}

/-- A step that fails for a fraction fails for the funding of its position. -/
theorem addPosition_fractional {f : Fault} (member : x ∈ s.positions) (totals : t.ShortNumbers)
    (fractional : f.Fractional) (failed : s.addPosition wanted t x = .error f) :
    ∃ m, s.marketAt x.1 = .ok m ∧ x.2.Unitless m := by
  rcases bind_eq_error.mp failed with absent | ⟨m, found, failed⟩
  · exact absurd fractional ((marketAt_ends member).fault absent).not_fractional
  · refine ⟨m, found, ?_⟩
    rcases (PerpTotals.add_ends (position_short member) (marketAt_short found) totals).fault
      failed with fault | ⟨sized, fault⟩
    · exact absurd fractional fault.not_fractional
    have negative := fault.negative fractional
    rcases bind_eq_error.mp failed with failed | ⟨_, added, _⟩
    · rw [Position.addedTo, if_neg sized] at failed
      rcases bind_eq_error.mp failed with failed | ⟨_, accrued, _⟩
      · exact Position.unitless_of_accruedFunding sized fractional failed
      · have nonneg := (Position.accruedFunding_eq_ok accrued).1
        omega
    · have nonneg := (Position.addedTo_eq_ok added).2 sized
      omega

/-- A position with a size is added with its funding first. -/
theorem addPosition_of_accruedFunding {m : MarketSlot} {f : Fault} (sized : x.2.size ≠ 0)
    (found : s.marketAt x.1 = .ok m) (failed : x.2.accruedFunding m = .error f) :
    s.addPosition wanted t x = .error f := by
  have added : x.2.addedTo m t.accountValue = .error f := by
    rw [Position.addedTo, if_neg sized, bind_eq_error]
    exact .inl failed
  rw [addPosition, bind_eq_error]
  refine .inr ⟨m, found, ?_⟩
  rw [PerpTotals.add, bind_eq_error]
  exact .inl added

/-- The positions of the account can be added up to one whose funding has no unit. -/
def ReachesUnitless (s : Snapshot) : Prop :=
  ∃ collateral before x after t m, s.collateral = .ok collateral ∧
    s.positions = before ++ x :: after ∧
    before.foldlM (s.addPosition .initial) { accountValue := collateral } = .ok t ∧
    s.marketAt x.1 = .ok m ∧ x.2.Unitless m

theorem collateral_holds {collateral : Int} (valued : s.collateral = .ok collateral) :
    Width.i64.Holds collateral := by
  obtain ⟨value, _, floored⟩ := bind_eq_ok.mp valued
  exact (Fixed.floor_eq_ok.mp floored).1

/-- The first step that fails while the positions are added up decides an assessment. -/
theorem assess_of_addPosition {label : Text} {required : Requirements} {collateral : Int}
    {before after : List (Nat × Position)} {f : Fault} (valued : s.collateral = .ok collateral)
    (split : s.positions = before ++ x :: after)
    (folded : before.foldlM (s.addPosition .initial) { accountValue := collateral } = .ok t)
    (failed : s.addPosition .initial t x = .error f) :
    s.assess label required false = .error f := by
  have aggregated : s.perpTotals collateral .initial = .error f := by
    rw [perpTotals_eq, Width.check_eq_ok.mpr ⟨collateral_holds valued, rfl⟩]
    exact foldlM_eq_error.mpr ⟨before, x, after, t, split, folded, failed⟩
  have evaluated : s.evaluate .initial collateral required = .error f :=
    bind_eq_error.mpr (.inl aggregated)
  exact bind_eq_error.mpr (.inr ⟨collateral, valued, bind_eq_error.mpr (.inl evaluated)⟩)

theorem reachesUnitless_of_perpTotals {collateral : Int} {f : Fault} (fractional : f.Fractional)
    (valued : s.collateral = .ok collateral)
    (failed : s.perpTotals collateral .initial = .error f) : s.ReachesUnitless := by
  have held := collateral_holds valued
  rw [perpTotals_eq, Width.check_eq_ok.mpr ⟨held, rfl⟩] at failed
  obtain ⟨before, x, after, t, split, folded, failed⟩ := foldlM_eq_error.mp failed
  have active : ∀ y ∈ before ++ x :: after, y ∈ s.positions := fun y member => split ▸ member
  have totals : t.ShortNumbers := by
    refine Ends.result (P := s.PositionFault) (Ends.foldlM (start_short held.short) ?_) folded
    exact fun t y member totals => addPosition_ends (active y (by simp [member])) totals
  obtain ⟨m, found, unitless⟩ :=
    addPosition_fractional (active x (by simp)) totals fractional failed
  exact ⟨collateral, before, x, after, t, m, valued, split, folded, found, unitless⟩

/-- An assessment without validation fails for a fraction exactly if it reaches one; the first check
already does. -/
theorem assess_fractional {label : Text} {required : Requirements}
    (ratios : required.ShortNumbers) :
    (∃ f : Fault, f.Fractional ∧ s.assess label required false = .error f) ↔
      s.ReachesUnitless := by
  constructor
  · rintro ⟨f, fractional, failed⟩
    obtain fault | fault | ⟨member, sized, found, fault⟩ := (assess_ends ratios).fault failed
    · exact absurd fractional fault.not_fractional
    · exact absurd fractional fault.not_fractional
    have negative := fault.negative fractional
    rcases bind_eq_error.mp failed with failed | ⟨collateral, valued, failed⟩
    · exact absurd fractional (collateral_ends.fault failed).not_fractional
    rcases bind_eq_error.mp failed with failed | ⟨initial, evaluated, _⟩
    · rcases bind_eq_error.mp failed with failed | ⟨perp, folded, _⟩
      · exact reachesUnitless_of_perpTotals fractional valued failed
      · have marked := marked_of_perpTotals folded _ member
        obtain rfl := marketAt_exact found
        exact absurd negative (not_lt.mpr (marked.decimals sized))
    · have marked := (evaluate_eq_ok evaluated).2.1 _ member
      obtain rfl := marketAt_exact found
      exact absurd negative (not_lt.mpr (marked.decimals sized))
  · rintro ⟨collateral, before, x, after, t, m, valued, split, folded, found, unitless⟩
    obtain ⟨f, fractional, failed⟩ := unitless.accruedFunding
    refine ⟨f, fractional, assess_of_addPosition valued split folded ?_⟩
    exact addPosition_of_accruedFunding unitless.sized found failed

/-- An accepted account has no funding without a unit. -/
theorem not_reachesUnitless_of_accepted (accepted : s.violations = []) : ¬ s.ReachesUnitless := by
  rintro ⟨_, before, x, after, _, m, _, split, _, found, unitless⟩
  have member : x ∈ s.positions := by simp [split]
  have nonneg := decimals_of_accepted accepted member found
  exact absurd unitless.decimals.1 (not_lt.mpr nonneg)

end Snapshot
end Solvency
