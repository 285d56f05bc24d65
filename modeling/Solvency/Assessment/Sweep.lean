import Solvency.Assessment.Basic
import Solvency.Settings.Basic
import Solvency.Log

/-! Sweeps over many accounts. What is found wrong with one account is recorded, and the others are
assessed all the same. -/
namespace Solvency

/-- An account that could not be assessed. -/
structure Failure where
  label : Text
  code : String
  message : Text
  deriving DecidableEq, Repr

/-- The warning about such an account. -/
def Failure.warning (f : Failure) : LogLine :=
  ⟨.warning,
    "account " ++ f.label ++ " failed to evaluate: " ++ Text.ofString f.code ++ ": " ++ f.message⟩

inductive Verdict where
  | assessed (a : Assessment)
  | failed (f : Failure)
  deriving DecidableEq, Repr

namespace Verdict

def assessment? : Verdict → Option Assessment
  | .assessed a => some a
  | .failed _ => none

def failure? : Verdict → Option Failure
  | .assessed _ => none
  | .failed f => some f

end Verdict

structure Report where
  assessments : List Assessment := []
  failures : List Failure := []
  deriving DecidableEq, Repr

/-- The outcome for one account. -/
def Settings.judge (c : Settings) (account : Text × Snapshot) : Except Fault Verdict :=
  match account.2.assess account.1 c.requirements c.validates with
  | .ok a => .ok (.assessed a)
  | .error (.margin f) => .ok (.failed ⟨account.1, f.code, f.message⟩)
  | .error f => .error f

namespace Report

/-- Every account could be assessed. -/
def ok (r : Report) : Bool := r.failures.isEmpty

/-- The labels of the accounts that may be liquidated. -/
def liquidatable (r : Report) : List Text :=
  (r.assessments.filter Assessment.liquidatable).map Assessment.label

/-- The line that ends the log of a sweep. -/
def summary (r : Report) : LogLine :=
  ⟨.info, Text.ofString <|
    s!"assessed {r.assessments.length} accounts: {r.liquidatable.length} liquidatable, " ++
    s!"{r.failures.length} failed"⟩

def toDocument (r : Report) : Document :=
  .record [
    ("assessments", .list (r.assessments.map Assessment.toDocument)),
    ("failures", .list (r.failures.map fun f => .record [
      ("label", .text f.label),
      ("code", f.code),
      ("message", .text f.message)]))]

end Report

/-- What a sweep finds and what it logs. -/
structure Sweep where
  report : Report := {}
  log : List LogLine := []
  deriving DecidableEq, Repr

namespace Sweep

/-- The sweep after one more account; a failure is logged as it is found. -/
def add (s : Sweep) : Verdict → Sweep
  | .assessed a => { s with report.assessments := s.report.assessments ++ [a] }
  | .failed f =>
    { report := { s.report with failures := s.report.failures ++ [f] }, log := s.log ++ [f.warning] }

def finish (s : Sweep) : Sweep := { s with log := s.log ++ [s.report.summary] }

end Sweep

/-- One step of a sweep. -/
def Settings.sweepNext (c : Settings) (s : Sweep) (account : Text × Snapshot) :
    Except Fault Sweep := do
  let verdict ← c.judge account
  pure (s.add verdict)

def Settings.sweep (c : Settings) (accounts : List (Text × Snapshot)) : Except Fault Sweep := do
  let s ← accounts.foldlM c.sweepNext {}
  pure s.finish

end Solvency
