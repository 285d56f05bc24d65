import Solvency.CommandLine.Run
import Solvency.Proofs.Containment
import Solvency.Proofs.Encoding
import Solvency.Proofs.LargestOrder

/-! Reports in the canonical form. Messages of findings are characters throughout, and the numbers of an
assessment have numerals, so that only the labels of accounts, which nothing has screened, can keep
a report from being written. -/
namespace Solvency

section Messages

theorem Text.hasHalf_joined {separator : Text} {texts : List Text}
    (between : separator.hasHalf = false) (each : ∀ t ∈ texts, t.hasHalf = false) :
    (joined separator texts).hasHalf = false := by
  fun_induction joined separator texts with
  | case1 => rfl
  | case2 t => exact each t List.mem_cons_self
  | case3 t rest _ ih =>
    have others := ih fun u member => each u (List.mem_cons_of_mem _ member)
    rw [hasHalf_append, hasHalf_append, each t List.mem_cons_self, between, others]
    rfl

variable {short : Prop} {s : Snapshot} {f : Fault}

theorem ArithmeticFault.hasHalf_message (fault : ArithmeticFault short f) :
    f.message.hasHalf = false := by
  cases fault <;> exact Text.hasHalf_ofChars _

theorem FundingFault.hasHalf_message {decimals : Int} (fault : FundingFault short decimals f) :
    f.message.hasHalf = false := by
  cases fault with
  | arithmetic fault => exact fault.hasHalf_message
  | vanished | fraction | unbounded => exact Text.hasHalf_ofChars _

namespace Snapshot

theorem MarketFault.hasHalf_message (fault : s.MarketFault f) : f.message.hasHalf = false := by
  cases fault with
  | arithmetic fault => exact fault.hasHalf_message
  | noEntry | empty => exact Text.hasHalf_ofChars _

/-- The symbol without a price is quoted, and so may hold anything. -/
theorem BalanceFault.hasHalf_message (fault : s.BalanceFault f) : f.message.hasHalf = false := by
  cases fault with
  | arithmetic fault => exact fault.hasHalf_message
  | noEntry | empty | unpriced | weightless => exact Text.hasHalf_ofChars _

theorem AssessmentFault.hasHalf_message (fault : s.AssessmentFault f) :
    f.message.hasHalf = false := by
  obtain fault | fault | ⟨_, _, _, fault⟩ := fault <;> exact fault.hasHalf_message

end Snapshot

theorem hasHalf_violated (violated : List Invariant) :
    (MarginFault.config (.violated violated)).message.hasHalf = false := by
  have names : (Text.joined ", " (violated.map fun i => Text.ofString i.id)).hasHalf = false := by
    refine Text.hasHalf_joined (Text.hasHalf_ofChars _) (List.forall_mem_map.mpr fun i _ => ?_)
    exact Text.hasHalf_ofChars _
  change Text.hasHalf ("invalid snapshot: " ++ _) = false
  rw [Text.hasHalf_append, names]
  simp [Text.ofString]

end Messages

section Numbers

theorem Factor.products_short {total r : Int} {terms : List (Int × Int)} (start : Short total)
    (done : products total terms = .ok r) : Short r := by
  induction terms generalizing total with
  | nil =>
    cases done
    exact start
  | cons term rest ih =>
    simp only [products, bind_eq_ok] at done
    obtain ⟨_, _, _, added, done⟩ := done
    exact ih (Width.add_eq_ok.mp added).1.short done

theorem Factor.dot_short {factors notionals : List Int} {r : Int}
    (done : dot factors notionals = .ok r) : Short r := by
  unfold dot at done
  split at done
  · exact absurd done (fail_ne_ok _ _)
  · exact products_short short_zero done

theorem FractionKind.budget_short {kind : FractionKind} {perp : PerpTotals} {collateral r : Int}
    (done : kind.budget perp collateral = .ok r) : Short r := by
  cases kind
  case maintenance => exact (Width.mul_eq_ok.mp done).1.short
  all_goals
    obtain ⟨_, _, done⟩ := bind_eq_ok.mp done
    exact (Width.mul_eq_ok.mp done).1.short

/-- Both sides of a check are short. -/
structure FractionOutcome.ShortNumbers (o : FractionOutcome) : Prop where
  budget : Short o.budget
  requirement : Short o.requirement

theorem FractionKind.outcome_short {kind : FractionKind} {perp : PerpTotals} {spot : BorrowTotals}
    {collateral : Int} {o : FractionOutcome} (done : kind.outcome perp spot collateral = .ok o) :
    o.ShortNumbers := by
  unfold outcome at done
  split at done
  · obtain ⟨requirement, weighed, done⟩ := bind_eq_ok.mp done
    obtain ⟨budget, allowed, made⟩ := bind_eq_ok.mp done
    cases made
    exact ⟨budget_short allowed, Factor.dot_short weighed⟩
  · cases done
    exact ⟨short_zero, short_zero⟩

/-- The numbers of an assessment are short, but for the index of a market. -/
structure Assessment.ShortNumbers (a : Assessment) : Prop where
  value : Short a.value
  collateral : Short a.collateral
  maintenance : a.maintenance.ShortNumbers
  initial : a.initial.ShortNumbers
  cancel : a.cancel.ShortNumbers

namespace Snapshot

variable {s : Snapshot} {label : Text} {required : Requirements} {validates : Bool} {a : Assessment}

theorem evaluate_short {kind : FractionKind} {collateral : Int} {o : FractionOutcome}
    (done : s.evaluate kind collateral required = .ok o) : o.ShortNumbers :=
  FractionKind.outcome_short (evaluate_eq_ok done).1

/-- The largest orders are in an active market. -/
theorem active_of_largestOrder {i : Nat} (done : s.largestOrder = .ok (some i)) :
    (i : Int) < s.marketCount := by
  obtain ⟨_, best, picked, result⟩ := largestOrder_eq_ok.mp done
  have held := IsLastGreatest.of_foldl (restingValues_ascending s) picked
  obtain ⟨p, member, _⟩ := mem_restingValues.mp held.member
  by_cases zero : best.2 = 0
  · rw [if_pos zero] at result
    contradiction
  · rw [if_neg zero] at result
    obtain rfl := Option.some.inj result
    exact (mem_positions.mp member).1

/-- An assessment goes by the label given, its numbers are short, and the market of its largest orders
is active. -/
theorem assess_short (done : s.assess label required validates = .ok a) :
    a.label = label ∧ a.ShortNumbers ∧ ∀ i ∈ a.largestOrder, (i : Int) < s.marketCount := by
  have done : s.assess label required false = .ok a := by
    cases validates with
    | true => exact (seq_eq_ok.mp done).2
    | false => exact done
  obtain ⟨collateral, weighed, done⟩ := bind_eq_ok.mp done
  obtain ⟨initial, initially, done⟩ := bind_eq_ok.mp done
  obtain ⟨maintenance, maintained, done⟩ := bind_eq_ok.mp done
  obtain ⟨cancel, cancelled, done⟩ := bind_eq_ok.mp done
  obtain ⟨value, valued, done⟩ := bind_eq_ok.mp done
  have numbers (holds : Bool) (largest : Option Nat) : Assessment.ShortNumbers
      ⟨label, value, collateral, maintenance, initial, cancel, holds, largest⟩ := {
    value := totalValue_ends.result valued
    collateral := (collateral_holds weighed).short
    maintenance := evaluate_short maintained
    initial := evaluate_short initially
    cancel := evaluate_short cancelled }
  dsimp only at done
  split at done
  · obtain ⟨largest, ranked, made⟩ := bind_eq_ok.mp done
    cases made
    refine ⟨rfl, numbers _ _, fun i listed => ?_⟩
    obtain rfl := Option.mem_def.mp listed
    exact active_of_largestOrder ranked
  · cases done
    exact ⟨rfl, numbers _ _, by simp⟩

end Snapshot

end Numbers

theorem FractionOutcome.ShortNumbers.encodable {o : FractionOutcome} (numbers : o.ShortNumbers) :
    o.toDocument.Encodable := by
  simp [toDocument, numbers.budget.writable, numbers.requirement.writable]

theorem Assessment.encodable_toDocument {a : Assessment} (numbers : a.ShortNumbers) :
    a.toDocument.Encodable ↔ a.label.hasHalf = false ∧ ∀ i ∈ a.largestOrder, Writable i := by
  cases largest : a.largestOrder <;>
    simp [toDocument, largest, numbers.value.writable, numbers.collateral.writable,
      numbers.maintenance.encodable, numbers.initial.encodable, numbers.cancel.encodable]

theorem Report.encodable_toDocument {r : Report} : r.toDocument.Encodable ↔
    (∀ a ∈ r.assessments, a.toDocument.Encodable) ∧
      ∀ f ∈ r.failures, f.label.hasHalf = false ∧ f.message.hasHalf = false := by
  have code (f : Failure) : (Text.ofString f.code).hasHalf = false := Text.hasHalf_ofChars _
  rw [toDocument, Document.encodable_record]
  simp only [List.forall_mem_cons, Document.encodable_list, List.forall_mem_map,
    Document.encodable_record, Document.encodable_text, code, List.not_mem_nil, true_and]
  simp

section Depth

variable {leaf : Nat}

theorem FractionOutcome.nesting_toDocument (o : FractionOutcome) (leaf_le : leaf ≤ 1) :
    o.toDocument.nesting leaf ≤ 2 := by
  refine Document.nesting_record_le leaf_le ?_
  simp [leaf_le]

theorem Assessment.nesting_toDocument (a : Assessment) (leaf_le : leaf ≤ 1) :
    a.toDocument.nesting leaf ≤ 3 := by
  have outcome (o : FractionOutcome) := o.nesting_toDocument leaf_le
  refine Document.nesting_record_le (Nat.le_succ_of_le leaf_le) ?_
  cases a.largestOrder <;> simp [Nat.le_succ_of_le leaf_le, outcome]

/-- A report is never too deep to be written. -/
theorem Report.nesting_toDocument (r : Report) (leaf_le : leaf ≤ 1) :
    r.toDocument.nesting leaf ≤ 5 := by
  refine Document.nesting_record_le (by omega) ?_
  simp only [List.forall_mem_cons, Document.nesting_list_le, List.forall_mem_map]
  refine ⟨fun a _ => a.nesting_toDocument leaf_le, fun f _ => ?_, by simp⟩
  exact Document.nesting_record_le (by omega) (by simp; omega)

theorem Report.fits (r : Report) (screening encoding : Room) :
    r.toDocument.Fits screening encoding := by
  have screened := r.nesting_toDocument (Nat.le_refl 1)
  have encoded := r.nesting_toDocument (Nat.zero_le 1)
  exact ⟨by have := screening.ample; omega, by have := encoding.ample; omega⟩

end Depth

/-- The canonical form can hold the verdict. -/
def Verdict.Encodable : Verdict → Prop
  | .assessed a => a.toDocument.Encodable
  | .failed f => f.label.hasHalf = false ∧ f.message.hasHalf = false

theorem Report.encodable_ofVerdicts {verdicts : List Verdict} :
    (ofVerdicts verdicts).toDocument.Encodable ↔ ∀ v ∈ verdicts, v.Encodable := by
  rw [encodable_toDocument]
  constructor
  · rintro ⟨assessments, failures⟩ v member
    cases v with
    | assessed a => exact assessments a (List.mem_filterMap.mpr ⟨_, member, rfl⟩)
    | failed f => exact failures f (List.mem_filterMap.mpr ⟨_, member, rfl⟩)
  · intro encodable
    constructor
    · intro a kept
      obtain ⟨v, member, own⟩ := List.mem_filterMap.mp kept
      cases v <;> cases own
      exact encodable _ member
    · intro f kept
      obtain ⟨v, member, own⟩ := List.mem_filterMap.mp kept
      cases v <;> cases own
      exact encodable _ member

namespace Settings

variable {c : Settings} {account : Text × Snapshot} {accounts : List (Text × Snapshot)}

/-- The finding about an account can be written. -/
theorem hasHalf_of_alone {g : MarginFault} (valid : c.Valid)
    (failed : c.alone account = .error (.margin g)) : g.message.hasHalf = false := by
  have unchecked (failed : account.2.assess account.1 c.requirements false = .error (.margin g)) :
      g.message.hasHalf = false :=
    ((Snapshot.assess_ends (ratios_short valid)).fault failed).hasHalf_message
  unfold alone at failed
  cases validated : c.validates with
  | false =>
    rw [validated] at failed
    exact unchecked failed
  | true =>
    rw [validated, Snapshot.assess_validated] at failed
    rcases bind_eq_error.mp failed with refused | ⟨_, _, failed⟩
    · obtain ⟨_, same⟩ := Snapshot.validate_ends.fault refused
      cases same
      exact hasHalf_violated _
    · exact unchecked failed

/-- The report can hold what becomes of an account: its label is one of characters, its assessment
fails with nothing but a finding, and names no market whose index is beyond all numerals. -/
structure Reportable (c : Settings) (account : Text × Snapshot) : Prop where
  label : account.1.hasHalf = false
  unit : ¬ (c.validates = false ∧ account.2.ReachesUnitless)
  numerals : c.alone account ≠ .error .digitLimit
  order : ∀ a, c.alone account = .ok a → ∀ i ∈ a.largestOrder, Writable i

theorem encodable_of_judge {v : Verdict} (valid : c.Valid) (judged : c.judge account = .ok v) :
    v.Encodable ↔ account.1.hasHalf = false ∧
      ∀ a, c.alone account = .ok a → ∀ i ∈ a.largestOrder, Writable i := by
  unfold judge at judged
  split at judged
  · rename_i a assessed
    cases judged
    change c.alone account = .ok a at assessed
    obtain ⟨labelled, numbers, _⟩ := Snapshot.assess_short assessed
    rw [Verdict.Encodable, Assessment.encodable_toDocument numbers, labelled, assessed]
    simp
  · rename_i f failed
    cases judged
    change c.alone account = .error (.margin f) at failed
    rw [Verdict.Encodable, hasHalf_of_alone valid failed, failed]
    simp
  · contradiction

/-- An account gets a verdict exactly if neither a fraction nor an integer without a numeral ends its
assessment. -/
theorem judged_iff (valid : c.Valid) : (∃ v, c.judge account = .ok v) ↔
    ¬ (c.validates = false ∧ account.2.ReachesUnitless) ∧ c.alone account ≠ .error .digitLimit := by
  rw [judge_returns_iff]
  constructor
  · intro findings
    constructor
    · rintro ⟨unchecked, reached⟩
      obtain ⟨f, fractional, failed⟩ := alone_unitless valid unchecked reached
      obtain ⟨g, rfl⟩ := findings f failed
      exact fractional
    · intro failed
      obtain ⟨g, same⟩ := findings _ failed
      cases same
  · rintro ⟨unit, numerals⟩ f failed
    rcases alone_fault valid failed with finding | ⟨rfl, _⟩ | ⟨_, reached⟩
    · exact finding
    · exact absurd failed numerals
    · exact absurd reached unit

theorem reportable_iff (valid : c.Valid) :
    c.Reportable account ↔ ∃ v, c.judge account = .ok v ∧ v.Encodable := by
  constructor
  · rintro ⟨label, unit, numerals, order⟩
    obtain ⟨v, judged⟩ := (judged_iff valid).mpr ⟨unit, numerals⟩
    exact ⟨v, judged, (encodable_of_judge valid judged).mpr ⟨label, order⟩⟩
  · rintro ⟨v, judged, encodable⟩
    obtain ⟨unit, numerals⟩ := (judged_iff valid).mp ⟨v, judged⟩
    obtain ⟨label, order⟩ := (encodable_of_judge valid judged).mp encodable
    exact ⟨label, unit, numerals, order⟩

/-- The canonical form can hold the report of a sweep if it can hold each verdict. -/
theorem sweep_encodable_iff :
    (∃ s, c.sweep accounts = .ok s ∧ s.report.toDocument.Encodable) ↔
      ∀ account ∈ accounts, ∃ v, c.judge account = .ok v ∧ v.Encodable := by
  rw [sweep_eq]
  constructor
  · rintro ⟨s, swept, encodable⟩ account member
    obtain ⟨verdicts, judged, rfl⟩ := map_eq_ok.mp swept
    obtain ⟨v, result, made⟩ := exists_mem_of_mapM judged member
    exact ⟨v, made, Report.encodable_ofVerdicts.mp encodable v result⟩
  · intro each
    obtain ⟨verdicts, judged⟩ := mapM_returns_iff.mpr fun account member =>
      (each account member).imp fun _ => And.left
    refine ⟨_, map_eq_ok.mpr ⟨verdicts, judged, rfl⟩, Report.encodable_ofVerdicts.mpr ?_⟩
    refine forall_of_mapM (fun account member v made => ?_) judged
    obtain ⟨v', made', encodable⟩ := each account member
    obtain rfl := Except.ok.inj (made.symm.trans made')
    exact encodable

/-- A report is written exactly if it can hold what becomes of each account. -/
theorem report_returns_iff {host : Host} (valid : c.Valid) :
    (∃ exit, CommandLine.report host c accounts = .ok exit) ↔
      ∀ account ∈ accounts, c.Reportable account := by
  have written (r : Report) :
      (∃ line, r.toDocument.canonical host.screening host.encoding = .ok line) ↔
        r.toDocument.Encodable := by
    rw [Document.canonical_returns_iff, and_iff_left (r.fits _ _)]
  simp only [reportable_iff valid, ← sweep_encodable_iff, ← written]
  constructor
  · rintro ⟨exit, done⟩
    obtain ⟨s, swept, done⟩ := bind_eq_ok.mp done
    obtain ⟨line, written, _⟩ := bind_eq_ok.mp done
    exact ⟨s, swept, line, written⟩
  · rintro ⟨s, swept, line, written⟩
    exact ⟨_, bind_eq_ok.mpr ⟨s, swept, bind_eq_ok.mpr ⟨line, written, rfl⟩⟩⟩

/-- Short numbers always have their place in a report. -/
theorem reportable_of_short (valid : c.Valid) (numbers : account.2.ShortNumbers)
    (label : account.1.hasHalf = false) (validated : c.validates = true) : c.Reportable account where
  label := label
  unit := by simp [validated]
  numerals failed := by
    rcases alone_fault valid failed with ⟨_, same⟩ | ⟨_, long⟩ | ⟨fractional, _⟩
    · cases same
    · exact long numbers
    · exact fractional
  order a assessed i listed := by
    obtain ⟨_, _, active⟩ := Snapshot.assess_short assessed
    exact writable_of_lt (active i listed) numbers.marketCount

end Settings
end Solvency
