import Solvency.Proofs.Containment

/-! A sweep is made of separate assessments. Each account adds its own assessment or failure to the report
and sees nothing of the accounts before it, so sweeps over the parts of a list give the parts of the
report. The log names every failure once, in order, and ends with the counts. -/
namespace Solvency

/-- The line that a sweep ends with. -/
def LogLine.summary (assessed liquidatable failed : Nat) : LogLine where
  level := .info
  message := Text.ofString <|
    s!"assessed {assessed} accounts: {liquidatable} liquidatable, " ++ s!"{failed} failed"

namespace Report

/-- The entries of one report in front of those of another. -/
instance : Append Report where
  append r q := ⟨r.assessments ++ q.assessments, r.failures ++ q.failures⟩

theorem ofVerdicts_append (verdicts others : List Verdict) :
    ofVerdicts (verdicts ++ others) = ofVerdicts verdicts ++ ofVerdicts others :=
  congrArg₂ Report.mk List.filterMap_append List.filterMap_append

end Report

namespace Settings

variable {c : Settings} {accounts : List (Text × Snapshot)}

/-- The account can be assessed by itself. -/
def assesses (c : Settings) (account : Text × Snapshot) : Bool := (c.alone account).toOption.isSome

/-- The account can be assessed, and fails the maintenance check. -/
def liquidates (c : Settings) (account : Text × Snapshot) : Bool :=
  (c.alone account).toOption.any Assessment.liquidatable

/-- The assessment of the account fails with a finding about it. -/
def refuses (c : Settings) (account : Text × Snapshot) : Bool := (c.failure? account).isSome

/-- The report of two lists in a row is the report of the first in front of that of the second. -/
theorem sweep_append (c : Settings) (xs ys : List (Text × Snapshot)) :
    Sweep.report <$> c.sweep (xs ++ ys) =
      c.sweep xs >>= fun s => c.sweep ys >>= fun t => pure (s.report ++ t.report) := by
  simp only [sweep_eq, List.mapM_append, map_eq_pure_bind, bind_assoc, pure_bind, Sweep.ofVerdicts,
    Report.ofVerdicts_append]

/-- The log of a sweep, by what its accounts come to. -/
theorem log_of_sweep {s : Sweep} (done : c.sweep accounts = .ok s) :
    s.log = (accounts.filterMap c.failure?).map Failure.warning ++
      [.summary (accounts.countP c.assesses) (accounts.countP c.liquidates)
        (accounts.countP c.refuses)] := by
  have covers := sweep_covers done
  have logged : s.log = s.report.failures.map Failure.warning ++ [s.report.summary] := by
    rw [sweep_eq] at done
    obtain ⟨verdicts, _, rfl⟩ := map_eq_ok.mp done
    rfl
  have assessed : s.report.assessments.length = accounts.countP c.assesses := by
    rw [covers.assessments, List.length_filterMap_eq_countP]
    rfl
  have liquidatable : s.report.liquidatable.length = accounts.countP c.liquidates := by
    rw [Report.liquidatable, List.length_map, ← List.countP_eq_length_filter, covers.assessments,
      List.countP_filterMap]
    refine List.countP_congr fun account _ => ?_
    rw [liquidates]
    cases (c.alone account).toOption with
    | none => exact Iff.rfl
    | some a => exact Iff.rfl
  have failed : s.report.failures.length = accounts.countP c.refuses := by
    rw [covers.failures, List.length_filterMap_eq_countP]
    rfl
  rw [logged, ← assessed, ← liquidatable, ← failed, ← covers.failures]
  rfl

/-- An account that may be liquidated, one that is refused, and one that holds nothing. -/
def mixed : List (Text × Snapshot) := [("a", holder 1 0), ("b", holder 1 (-1)), ("c", {})]

end Settings
end Solvency
