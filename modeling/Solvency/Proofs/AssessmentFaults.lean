import Solvency.Assessment.Basic
import Solvency.Proofs.Accepted
import Solvency.Proofs.BalanceFaults
import Solvency.Proofs.Fraction

/-! Faults of an assessment. Each of its steps fails for one of the positions or for one of the balances;
vectors of factors and notionals always pair up, and an account with positions is never found to
have none. -/
namespace Solvency

variable {s : Snapshot} {kind : FractionKind} {collateral : Int} {required : Requirements}

/-- Factors and notionals of a fraction are vectors of one length. -/
theorem FractionKind.weighed_paired {wanted : FactorChoice} (serves : wanted.serves kind = true) :
    (kind.weighed (PerpTotals.exact s collateral wanted)
      (BorrowTotals.exact s wanted required)).1.length =
    (kind.weighed (PerpTotals.exact s collateral wanted)
      (BorrowTotals.exact s wanted required)).2.length := by
  cases kind
  all_goals
    simp only [FactorChoice.serves] at serves
    simp [weighed, PerpTotals.exact, PerpTotals.sums, BorrowTotals.exact, BorrowTotals.sums, serves]

theorem FractionKind.weighed_short (kind : FractionKind) {perp : PerpTotals} {spot : BorrowTotals}
    (perps : perp.ShortNumbers) (spots : spot.ShortNumbers) :
    (∀ f ∈ (kind.weighed perp spot).1, Short f) ∧ ∀ n ∈ (kind.weighed perp spot).2, Short n := by
  cases kind
  case initial =>
    exact ⟨List.forall_mem_append.mpr ⟨perps.initialFactors, spots.initialFactors⟩,
      List.forall_mem_append.mpr ⟨perps.filledNotionals, spots.notionals⟩⟩
  case maintenance =>
    exact ⟨List.forall_mem_append.mpr ⟨perps.maintenanceFactors, spots.maintenanceFactors⟩,
      List.forall_mem_append.mpr ⟨perps.heldNotionals, spots.notionals⟩⟩
  case cancel =>
    exact ⟨List.forall_mem_append.mpr ⟨perps.cancelFactors, spots.initialFactors⟩,
      List.forall_mem_append.mpr ⟨perps.filledNotionals, spots.notionals⟩⟩

theorem FractionKind.budget_ends {short : Prop} {perp : PerpTotals} (perps : perp.ShortNumbers)
    (short_collateral : Short collateral) :
    Ends (ArithmeticFault short) Width.i64.Holds (kind.budget perp collateral) := by
  have capped : Ends (ArithmeticFault short) Width.i64.Holds (do
      let realized ← Width.i64.add collateral perp.realized
      Width.i64.mul (min perp.accountValue realized) oneWhole) := by
    refine (Width.add_ends (fun _ => short_collateral) fun _ => perps.realized).bind ?_
    intro realized held
    refine Width.mul_ends (fun _ => ?_) fun _ => short_oneWhole
    rcases min_choice perp.accountValue realized with same | same <;> rw [same]
    · exact perps.accountValue
    · exact held.short
  cases kind
  case maintenance => exact Width.mul_ends (fun _ => perps.accountValue) fun _ => short_oneWhole
  case initial => exact capped
  case cancel => exact capped

theorem FractionKind.outcome_ends {short : Prop} {perp : PerpTotals} {spot : BorrowTotals}
    (perps : perp.ShortNumbers) (spots : spot.ShortNumbers) (short_collateral : Short collateral)
    (paired : (kind.weighed perp spot).1.length = (kind.weighed perp spot).2.length) :
    Ends (ArithmeticFault short) (fun _ => True) (kind.outcome perp spot collateral) := by
  obtain ⟨factors, notionals⟩ := weighed_short kind perps spots
  unfold outcome
  split
  · refine (Factor.dot_ends paired factors notionals).bind fun requirement _ => ?_
    exact (budget_ends perps short_collateral).bind fun budget _ => trivial
  · trivial

theorem Position.restingValue_ends {short : Prop} {p : Position} {mark : Int}
    (position : short → p.ShortNumbers) (short_mark : short → Short mark) :
    Ends (ArithmeticFault short) Short (p.restingValue mark) := by
  have orders : short → Short (max p.bids p.asks) := fun holds =>
    (position holds).bids.max (position holds).asks
  exact (Fixed.ofInt_ends orders).bind fun units lifted => Fixed.mul_ends (fun _ => lifted) short_mark

theorem lastGreatest_isSome (best : Option (Nat × Int)) (next : Nat × Int) :
    (lastGreatest best next).isSome = true := by
  unfold lastGreatest
  split
  · rfl
  · split <;> rfl

/-- Among some values there is a greatest. -/
theorem foldl_lastGreatest_ne_none {values : List (Nat × Int)} (nonempty : values ≠ []) :
    values.foldl lastGreatest none ≠ none := by
  have kept (best : Option (Nat × Int)) (some_best : best.isSome = true) :
      (values.tail.foldl lastGreatest best).isSome = true := by
    induction values.tail generalizing best with
    | nil => exact some_best
    | cons next rest ih => exact ih _ (lastGreatest_isSome best next)
  obtain ⟨first, rest, rfl⟩ := List.exists_cons_of_ne_nil nonempty
  exact Option.isSome_iff_ne_none.mp (kept _ (lastGreatest_isSome none first))

namespace Snapshot

/-- What an assessment may fail for, once the snapshot is accepted or not to be validated. -/
def AssessmentFault (s : Snapshot) (f : Fault) : Prop := s.BalanceFault f ∨ s.PositionFault f

theorem addPosition_ends {wanted : FactorChoice} {t : PerpTotals} {x : Nat × Position}
    (member : x ∈ s.positions) (totals : t.ShortNumbers) :
    Ends s.PositionFault PerpTotals.ShortNumbers (s.addPosition wanted t x) := by
  refine ((marketAt_ends member).faults fun _ => .market).bind fun m found => ?_
  refine (PerpTotals.add_ends (position_short member) (marketAt_short found) totals).faults ?_
  rintro f (fault | ⟨sized, fault⟩)
  · exact .market (.arithmetic fault)
  · exact .funding member sized found fault

theorem start_short (short_collateral : Short collateral) :
    PerpTotals.ShortNumbers { accountValue := collateral } :=
  ⟨short_collateral, short_zero, by simp, by simp, by simp, by simp, by simp⟩

theorem perpTotals_ends {wanted : FactorChoice} (short_collateral : Short collateral) :
    Ends s.PositionFault PerpTotals.ShortNumbers (s.perpTotals collateral wanted) := by
  have checked : Ends s.PositionFault Width.i64.Holds (Width.i64.check collateral) :=
    Ends.faults (Width.check_ends fun _ => short_collateral.writable) fun _ => .market ∘ .arithmetic
  rw [perpTotals_eq]
  refine checked.bind fun collateral held => ?_
  exact Ends.foldlM (start_short held.short) fun t x member totals => addPosition_ends member totals

theorem evaluate_ends (short_collateral : Short collateral) (ratios : required.ShortNumbers) :
    Ends s.AssessmentFault (fun _ => True) (s.evaluate kind collateral required) := by
  have folded : Ends s.PositionFault PerpTotals.ShortNumbers
      (s.perpTotals collateral kind.factors) := perpTotals_ends short_collateral
  refine (folded.run.faults fun _ => .inr).bind fun perp ⟨folded, perps⟩ => ?_
  refine Ends.faults (P := s.BalanceFault) ?_ fun _ => .inl
  have borrowed : Ends s.BalanceFault BorrowTotals.ShortNumbers
      (s.borrowTotals perp.realized kind.factors required) :=
    borrowTotals_ends perps.realized ratios
  refine borrowed.run.bind fun spot ⟨borrowed, spots⟩ => ?_
  refine Ends.faults (P := ArithmeticFault s.ShortNumbers) ?_ fun _ => .arithmetic
  refine FractionKind.outcome_ends perps spots short_collateral ?_
  obtain ⟨rfl, rfl⟩ := totals_exact folded borrowed
  exact FractionKind.weighed_paired kind.factors_serves

theorem largestOrder_ends (occupied : s.positions ≠ []) :
    Ends s.MarketFault (fun _ => True) s.largestOrder := by
  refine Ends.bind (Ends.mapM (R := fun _ => True) fun x member => ?_)
    fun values ⟨same_length, _⟩ => ?_
  · refine (marketAt_ends member).bind fun m found => ?_
    refine Ends.faults (P := ArithmeticFault s.ShortNumbers) ?_ fun _ => .arithmetic
    have mark : s.ShortNumbers → Short m.mark := fun numbers => (marketAt_short found numbers).mark
    exact (Position.restingValue_ends (position_short member) mark).bind fun value _ => trivial
  · have nonempty : values ≠ [] := by
      rintro rfl
      exact occupied (List.length_eq_zero_iff.mp same_length.symm)
    split
    · rename_i absent
      exact absurd absent (foldl_lastGreatest_ne_none nonempty)
    · trivial

theorem validate_ends : Ends (fun f => s.violations ≠ [] ∧
    f = .margin (.config (.violated s.violations))) (fun _ => s.violations = []) s.validate := by
  unfold validate
  split
  · rename_i accepted
    exact accepted
  · rename_i violated
    refine Ends.fail ⟨violated, rfl⟩ fun refused => absurd ?_ refused
    simp [Fault.cited, MarginFault.cited, ConfigFault.cited]

theorem assess_validated (s : Snapshot) (label : Text) (required : Requirements) :
    s.assess label required true = s.validate >>= fun _ => s.assess label required false := rfl

/-- An assessment without validation fails for one of the positions or for one of the balances. -/
theorem assess_ends {label : Text} (ratios : required.ShortNumbers) :
    Ends s.AssessmentFault (fun _ => True) (s.assess label required false) := by
  refine (collateral_ends.faults fun _ => .inl).bind fun collateral held => ?_
  refine (evaluate_ends held ratios).bind fun initial _ => ?_
  refine (evaluate_ends held ratios).bind fun maintenance _ => ?_
  refine (evaluate_ends held ratios).bind fun cancel _ => ?_
  refine (totalValue_ends.faults fun _ => .inl).bind fun value _ => ?_
  dsimp only
  split
  · rename_i holds
    have occupied : s.positions ≠ [] := by simpa using holds
    exact ((largestOrder_ends occupied).faults fun _ => .inr ∘ .market).bind fun _ _ => trivial
  · trivial

end Snapshot
end Solvency
