import Solvency.Assessment.Sweep
import Solvency.Proofs.Unitless

/-! Containment of failures in a sweep. A report holds the assessment or the failure of every account.
There is none if an account's assessment fails with more than a finding about it: for funding
without a unit, which only validation excludes, or for an integer that no message can write. -/
namespace Solvency

variable {s : Snapshot} {f : Fault}

theorem ArithmeticFault.margin_or_unwritable {short : Prop} (fault : ArithmeticFault short f) :
    (∃ g, f = .margin g) ∨ f = .digitLimit ∧ ¬ short := by
  cases fault with
  | overflow => exact .inl ⟨_, rfl⟩
  | unwritable long => exact .inr ⟨rfl, long⟩

theorem FundingFault.margin_or_unwritable {short : Prop} {decimals : Int}
    (fault : FundingFault short decimals f) (whole : ¬ f.Fractional) :
    (∃ g, f = .margin g) ∨ f = .digitLimit ∧ ¬ short := by
  cases fault with
  | arithmetic fault => exact fault.margin_or_unwritable
  | vanished => exact .inl ⟨_, rfl⟩
  | fraction | unbounded => exact absurd trivial whole

theorem Snapshot.AssessmentFault.margin_or_unwritable (fault : s.AssessmentFault f)
    (whole : ¬ f.Fractional) : (∃ g, f = .margin g) ∨ f = .digitLimit ∧ ¬ s.ShortNumbers := by
  rcases fault with fault | fault
  · cases fault with
    | arithmetic fault => exact fault.margin_or_unwritable
    | noEntry | empty | unpriced | weightless => exact .inl ⟨_, rfl⟩
  · cases fault with
    | funding _ _ _ fault => exact fault.margin_or_unwritable whole
    | market fault =>
      cases fault with
      | arithmetic fault => exact fault.margin_or_unwritable
      | noEntry | empty => exact .inl ⟨_, rfl⟩

namespace Settings

variable {c : Settings} {account : Text × Snapshot} {accounts : List (Text × Snapshot)}

theorem ratios_short (valid : c.Valid) : c.requirements.ShortNumbers := by
  obtain ⟨⟨positive, ordered, bounded⟩, _, _⟩ := valid
  unfold greatestRequirement at bounded
  exact ⟨short_of_lt (by omega), short_of_lt (by omega)⟩

/-- The assessment of one account of a sweep by itself. -/
def alone (c : Settings) (account : Text × Snapshot) : Except Fault Assessment :=
  account.2.assess account.1 c.requirements c.validates

/-- The entry for an account whose assessment fails with a finding about it. -/
def failure? (c : Settings) (account : Text × Snapshot) : Option Failure :=
  match c.alone account with
  | .error (.margin f) => some ⟨account.1, f.code, f.message⟩
  | _ => none

/-- What the assessment of an account by itself fails with. -/
theorem alone_fault (valid : c.Valid) (failed : c.alone account = .error f) :
    (∃ g, f = .margin g) ∨ f = .digitLimit ∧ ¬ account.2.ShortNumbers ∨
      f.Fractional ∧ c.validates = false ∧ account.2.ReachesUnitless := by
  have ratios := ratios_short valid
  have unchecked (failed : account.2.assess account.1 c.requirements false = .error f) :
      (∃ g, f = .margin g) ∨ f = .digitLimit ∧ ¬ account.2.ShortNumbers ∨
        f.Fractional ∧ account.2.ReachesUnitless := by
    by_cases fractional : f.Fractional
    · have reached := (Snapshot.assess_fractional ratios).mp ⟨f, fractional, failed⟩
      exact .inr (.inr ⟨fractional, reached⟩)
    · have fault := (Snapshot.assess_ends ratios).fault failed
      exact (fault.margin_or_unwritable fractional).imp_right .inl
  unfold alone at failed
  cases validated : c.validates with
  | false =>
    rw [validated] at failed
    simpa using unchecked failed
  | true =>
    rw [validated, Snapshot.assess_validated] at failed
    rcases bind_eq_error.mp failed with refused | ⟨_, passed, failed⟩
    · exact .inl ⟨_, (Snapshot.validate_ends.fault refused).2⟩
    · have accepted := Snapshot.validate_ends.result passed
      have unreached := Snapshot.not_reachesUnitless_of_accepted accepted
      simpa [unreached] using unchecked failed

/-- Without validation, funding without a unit is no finding about the account. -/
theorem alone_unitless (valid : c.Valid) (unchecked : c.validates = false)
    (reached : account.2.ReachesUnitless) :
    ∃ f : Fault, f.Fractional ∧ c.alone account = .error f := by
  unfold alone
  rw [unchecked]
  exact (Snapshot.assess_fractional (ratios_short valid)).mpr reached

/-- One account gets a verdict exactly if its assessment fails with nothing but findings about it. -/
theorem judge_returns_iff : (∃ v, c.judge account = .ok v) ↔
    ∀ f, c.alone account = .error f → ∃ g, f = .margin g := by
  unfold judge alone
  cases account.2.assess account.1 c.requirements c.validates with
  | ok a => simp
  | error f => cases f <;> simp

/-- A verdict is what the assessment by itself comes to. -/
theorem judge_alone {v : Verdict} (judged : c.judge account = .ok v) :
    v.assessment? = (c.alone account).toOption ∧ v.failure? = c.failure? account := by
  unfold judge at judged
  unfold failure? alone
  split at judged
  · rename_i assessed
    cases judged
    rw [assessed]
    exact ⟨rfl, rfl⟩
  · rename_i failed
    cases judged
    rw [failed]
    exact ⟨rfl, rfl⟩
  · contradiction

end Settings

/-- Every account has its assessment or its failure in the report, both in the order given. -/
structure Report.Covers (r : Report) (c : Settings) (accounts : List (Text × Snapshot)) : Prop where
  assessments : r.assessments = accounts.filterMap fun account => (c.alone account).toOption
  failures : r.failures = accounts.filterMap c.failure?
  all : r.assessments.length + r.failures.length = accounts.length

/-- A verdict is either an assessment or a failure. -/
theorem Verdict.length_kinds (verdicts : List Verdict) :
    (verdicts.filterMap Verdict.assessment?).length +
      (verdicts.filterMap Verdict.failure?).length = verdicts.length := by
  induction verdicts with
  | nil => rfl
  | cons v rest ih =>
    simp only [List.filterMap_cons, List.length_cons]
    cases v with
    | assessed a =>
      simp only [assessment?, failure?, List.length_cons]
      omega
    | failed f =>
      simp only [assessment?, failure?, List.length_cons]
      omega

/-- The report of verdicts. -/
def Report.ofVerdicts (verdicts : List Verdict) : Report where
  assessments := verdicts.filterMap Verdict.assessment?
  failures := verdicts.filterMap Verdict.failure?

namespace Sweep

/-- The sweep of verdicts. -/
def ofVerdicts (verdicts : List Verdict) : Sweep where
  report := .ofVerdicts verdicts
  log := (Report.ofVerdicts verdicts).failures.map Failure.warning ++
    [(Report.ofVerdicts verdicts).summary]

/-- What verdicts add to a sweep: each its entry, and each failure its line. -/
theorem foldl_add (verdicts : List Verdict) (s : Sweep) : verdicts.foldl add s =
    { report := {
        assessments := s.report.assessments ++ (Report.ofVerdicts verdicts).assessments
        failures := s.report.failures ++ (Report.ofVerdicts verdicts).failures }
      log := s.log ++ (Report.ofVerdicts verdicts).failures.map Failure.warning } := by
  induction verdicts generalizing s with
  | nil => simp [Report.ofVerdicts]
  | cons v rest ih =>
    rw [List.foldl_cons, ih]
    cases v <;>
      simp [add, Report.ofVerdicts, List.filterMap_cons, Verdict.assessment?, Verdict.failure?]

end Sweep

namespace Settings

variable {c : Settings} {accounts : List (Text × Snapshot)}

/-- Each step judges its account by itself. -/
theorem foldlM_sweepNext (c : Settings) (accounts : List (Text × Snapshot)) (s : Sweep) :
    accounts.foldlM c.sweepNext s =
      (fun verdicts => verdicts.foldl Sweep.add s) <$> accounts.mapM c.judge := by
  induction accounts generalizing s with
  | nil => rfl
  | cons account rest ih =>
    simp only [List.foldlM_cons, List.mapM_cons, sweepNext, ih, bind_assoc, pure_bind,
      List.foldl_cons, map_eq_pure_bind]

theorem sweep_eq (c : Settings) (accounts : List (Text × Snapshot)) :
    c.sweep accounts = Sweep.ofVerdicts <$> accounts.mapM c.judge := by
  rw [sweep, foldlM_sweepNext, bind_map_left, map_eq_pure_bind]
  refine bind_congr_of_ok fun verdicts _ => ?_
  rw [Sweep.foldl_add]
  rfl

/-- A report that is given covers the accounts. -/
theorem sweep_covers {s : Sweep} (done : c.sweep accounts = .ok s) :
    s.report.Covers c accounts := by
  rw [sweep_eq] at done
  obtain ⟨verdicts, judged, rfl⟩ := map_eq_ok.mp done
  have same_length : verdicts.length = accounts.length := by
    simpa using (congrArg List.length (mapM_eq_ok.mp judged)).symm
  exact {
    assessments := filterMap_of_mapM (fun _ _ judged => (judge_alone judged).1) judged
    failures := filterMap_of_mapM (fun _ _ judged => (judge_alone judged).2) judged
    all := (Verdict.length_kinds verdicts).trans same_length }

theorem sweep_returns : (∃ s, c.sweep accounts = .ok s) ↔
    ∀ account ∈ accounts, ∃ v, c.judge account = .ok v := by
  rw [← mapM_returns_iff, sweep_eq]
  constructor
  · rintro ⟨s, done⟩
    obtain ⟨verdicts, judged, _⟩ := map_eq_ok.mp done
    exact ⟨verdicts, judged⟩
  · rintro ⟨verdicts, judged⟩
    exact ⟨_, map_eq_ok.mpr ⟨verdicts, judged, rfl⟩⟩

/-- A sweep gives a report of all accounts exactly if none, unvalidated, reaches funding without a
unit, and none is refused for an integer without a numeral, which takes numbers that are not
short. -/
theorem sweep_returns_iff (c : Settings) (accounts : List (Text × Snapshot)) (valid : c.Valid) :
    ((∃ s, c.sweep accounts = .ok s ∧ s.report.Covers c accounts) ↔
      ∀ account ∈ accounts, ¬ (c.validates = false ∧ account.2.ReachesUnitless) ∧
        c.alone account ≠ .error .digitLimit) ∧
    ∀ account ∈ accounts, c.alone account = .error .digitLimit → ¬ account.2.ShortNumbers := by
  constructor
  · constructor
    · rintro ⟨s, done, _⟩ account member
      have findings := judge_returns_iff.mp (sweep_returns.mp ⟨s, done⟩ account member)
      constructor
      · rintro ⟨unchecked, reached⟩
        obtain ⟨f, fractional, failed⟩ := alone_unitless valid unchecked reached
        obtain ⟨g, rfl⟩ := findings f failed
        exact fractional
      · intro failed
        obtain ⟨g, same⟩ := findings _ failed
        cases same
    · intro contained
      have judged : ∀ account ∈ accounts, ∃ v, c.judge account = .ok v := by
        intro account member
        refine judge_returns_iff.mpr fun f failed => ?_
        obtain ⟨unit, written⟩ := contained account member
        rcases alone_fault valid failed with finding | ⟨rfl, _⟩ | ⟨_, reached⟩
        · exact finding
        · exact absurd failed written
        · exact absurd reached unit
      obtain ⟨s, done⟩ := sweep_returns.mpr judged
      exact ⟨s, done, sweep_covers done⟩
  · intro account _ failed
    rcases alone_fault valid failed with ⟨g, same⟩ | ⟨_, long⟩ | ⟨fractional, _⟩
    · cases same
    · exact long
    · exact fractional.elim

end Settings

/-- An account that holds one position, in a market with the given decimals. -/
def holder (size decimals : Int) : Snapshot where
  account := { positions := [some { key := 1 :: List.replicate 31 0, size }] }
  markets := [some ⟨"A", decimals, 0⟩]
  marks := [Fixed.scale]
  fundings := [1]
  marketCount := 1

theorem holder_reachesUnitless : (holder 1 (-1)).ReachesUnitless := by
  refine ⟨0, [], _, [], _, ⟨⟨"A", -1, 0⟩, Fixed.scale, 1⟩, rfl, rfl, rfl, rfl, ?_⟩
  exact ⟨by decide, by decide, by decide, by decide, .inl (by decide)⟩

theorem holder_unwritable {size : Int} (long : ¬ Writable size) (label : Text) :
    Settings.alone {} (label, holder size 0) = .error .digitLimit := by
  have sized : size ≠ 0 := by
    rintro rfl
    exact long short_zero.writable
  have owed : ¬ Writable (size * -1) := by
    rw [mul_neg_one]
    exact fun writable => long (neg_neg size ▸ writable.neg)
  have failed : (⟨1 :: List.replicate 31 0, size, 0, 0, 0, 0, 0⟩ : Position).accruedFunding
      ⟨⟨"A", 0, 0⟩, Fixed.scale, 1⟩ = .error .digitLimit :=
    bind_eq_error.mpr (.inr ⟨1, rfl, bind_eq_error.mpr (.inl (Width.check_unwritable owed))⟩)
  have added : (holder size 0).addPosition .initial { accountValue := 0 }
      (0, ⟨1 :: List.replicate 31 0, size, 0, 0, 0, 0, 0⟩) = .error .digitLimit :=
    Snapshot.addPosition_of_accruedFunding sized rfl failed
  exact Snapshot.assess_of_addPosition rfl (List.nil_append _).symm rfl added

namespace Settings

theorem sweep_returns_iff_validated : Valid {} ∧
    ∃ s, sweep {} [("a", holder 1 0), ("b", holder 1 (-1))] = .ok s ∧
      s.report.Covers {} [("a", holder 1 0), ("b", holder 1 (-1))] := by
  have valid : Valid {} := ⟨by decide, by decide, by decide⟩
  have assessed : alone {} ("a", holder 1 0) ≠ .error .digitLimit := by
    have done : ∃ a, alone {} ("a", holder 1 0) = .ok a := ⟨_, by cbv⟩
    obtain ⟨a, done⟩ := done
    simp [done]
  have refused : alone {} ("b", holder 1 (-1)) ≠ .error .digitLimit := by
    have failed : alone {} ("b", holder 1 (-1)) =
      .error (.margin (.config (.violated [.assetDecimalsNonnegative]))) := by cbv
    simp [failed]
  refine ⟨valid, (sweep_returns_iff {} _ valid).1.mpr ?_⟩
  simp [assessed, refused]

/-- A sweep may stop at an account and give no report of the others, with validation or without. -/
theorem sweep_not_total :
    (Valid {} ∧
      ¬ ∃ s, sweep {} [("a", holder (tenTo digitLimit) 0), ("b", holder 1 0)] = .ok s) ∧
    Valid { validates := false } ∧
      ¬ ∃ s, sweep { validates := false } [("a", holder 1 (-1)), ("b", holder 1 0)] = .ok s := by
  have checked : Valid {} := ⟨by decide, by decide, by decide⟩
  have unchecked : Valid { validates := false } := ⟨by decide, by decide, by decide⟩
  refine ⟨⟨checked, ?_⟩, unchecked, ?_⟩
  · intro returned
    have findings := judge_returns_iff.mp (sweep_returns.mp returned _ List.mem_cons_self)
    have long : ¬ Writable (tenTo digitLimit : Int) := by
      unfold Writable
      rw [Int.natAbs_natCast]
      exact lt_irrefl _
    obtain ⟨g, same⟩ := findings _ (holder_unwritable long "a")
    cases same
  · intro returned
    have findings := judge_returns_iff.mp (sweep_returns.mp returned _ List.mem_cons_self)
    have reached : (("a", holder 1 (-1)) : Text × Snapshot).2.ReachesUnitless :=
      holder_reachesUnitless
    obtain ⟨f, fractional, failed⟩ := alone_unitless unchecked rfl reached
    obtain ⟨g, rfl⟩ := findings f failed
    exact fractional

end Settings
end Solvency
