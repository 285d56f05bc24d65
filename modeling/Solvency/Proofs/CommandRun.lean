import Solvency.Proofs.Loading
import Solvency.Proofs.Reporting

/-! Runs of the command. A run that cannot load its input is refused, and any other writes one report
of all accounts, unless an account has a label or an assessment that no report can hold. Where logging
cannot be set up there is no run at all. -/
namespace Solvency.CommandLine

section Threshold

variable {level : Text}

/-- Any level will do but the names of what logging has beside severities. -/
theorem threshold_returns_iff : (∃ least, threshold level = .ok least) ↔
    level.flatMap CodePoint.upper ≠ "BASIC_FORMAT" ∧ level.flatMap CodePoint.upper ≠ "_STYLES" := by
  unfold threshold
  generalize level.flatMap CodePoint.upper = name
  dsimp only
  split
  · rename_i severity least found
    have apart : ∀ s ∈ severities,
        Text.ofString s.1 ≠ "BASIC_FORMAT" ∧ Text.ofString s.1 ≠ "_STYLES" := by decide
    obtain rfl : Text.ofString severity = name := by simpa using List.find?_some found
    exact iff_of_true ⟨least, rfl⟩ (apart _ (List.mem_of_find?_eq_some found))
  · split_ifs with format styles <;> simp [*]

end Threshold

variable {host : Host} {d : Directory} {env : Environment} {files arguments : List Text}
  {config : Option Text} {level : Text} {least : Nat} {c : Settings}
  {accounts : List (Text × Snapshot)} {e : Exit}

/-- The run has written one line, a report of all accounts, and its status tells whether the
assessment of one has failed. -/
def Exit.Reports (e : Exit) (host : Host) (c : Settings) (accounts : List (Text × Snapshot)) : Prop :=
  ∃ (s : Sweep) (line : String), c.sweep accounts = .ok s ∧ s.report.Covers c accounts ∧
    s.report.toDocument.canonical host.screening host.encoding = .ok line ∧
    (∀ character ∈ line.toList, Plain character) ∧ e.output = line.toList ++ ['\n'] ∧
    e.status = (if s.report.failures = [] then 0 else 1) ∧ e.complaint = none

/-- The run has been refused for the fault, with nothing on its output. -/
structure Exit.Refuses (e : Exit) (f : Fault) : Prop where
  status : e.status = 2
  output : e.output = []
  complaint : e.complaint = some f

theorem reports_of_report (done : report host c accounts = .ok e) (log : List LogLine) :
    Exit.Reports { e with log } host c accounts := by
  obtain ⟨s, swept, done⟩ := bind_eq_ok.mp done
  obtain ⟨line, written, made⟩ := bind_eq_ok.mp done
  cases made
  refine ⟨s, line, swept, Settings.sweep_covers swept, written, Document.plain_canonical written, rfl,
    ?_, rfl⟩
  simp [Report.ok]

section Asked

variable (asked : Request.ofArguments arguments = .assess files config level)
include asked

theorem run_of_threshold_error {f : Fault} (unset : threshold level = .error f) :
    run host d env arguments = .error f := by
  rw [run, asked]
  simp only [unset]
  rfl

theorem run_of_threshold (set : threshold level = .ok least) : run host d env arguments =
    (fun e => { e with log := written least e.log }) <$> assess host d env files config := by
  rw [run, asked]
  simp only [set, ok_bind, map_eq_pure_bind]

/-- What is loaded is reported, and the report decides whether there is an exit. -/
theorem run_of_load (set : threshold level = .ok least)
    (loaded : load host d env files config = .ok (c, accounts)) : run host d env arguments =
      (fun e => { e with log := written least (configuredLog host d env config ++ e.log) }) <$>
        report host c accounts := by
  rw [run_of_threshold asked set, assess, loaded]
  simp only [map_eq_pure_bind, bind_assoc, pure_bind]

/-- Input that cannot be loaded has the run refused. Not caught is only what the readers of texts and of
decimals fail with beyond malformed input, and that something is too deep to be screened. -/
theorem run_of_fault {f : Fault} (set : threshold level = .ok least)
    (failed : load host d env files config = .error f) :
    (∃ e, run host d env arguments = .ok e ∧ e.Refuses f) ∨ run host d env arguments = .error f ∧
      (f = .field .tooLarge ∨ f = .nesting ∧ d.TooDeep host (paths files config) ∨
        d.Misread host (paths files config) f) := by
  rw [run_of_threshold asked set, assess, failed]
  dsimp only
  by_cases foreseen : isForeseen f = true
  · rw [if_pos foreseen]
    exact .inl ⟨_, rfl, rfl, rfl, rfl⟩
  · rw [if_neg foreseen]
    refine .inr ⟨rfl, ?_⟩
    rcases load_loads.fault failed with decoding | misread
    · cases decoding with
      | foreseen caught => exact absurd caught foreseen
      | tooLarge same => exact .inl same
      | nesting same lack => exact .inr (.inl ⟨same, lack⟩)
    · exact .inr (.inr misread)

end Asked

/-- A directory with one file. -/
def sole (text : String) : Directory := .single "a.json" text

theorem load_sole {text : String} (ms : Members) (loaded : List (Text × Snapshot))
    (read : Json.read Host.usual.json (plainLines text.toList) = .ok (.mapping ms))
    (decoded : Snapshot.allOfMembers .usual "a" ms = .ok loaded) :
    load .usual (sole text) (fun _ => none) ["a.json"] none =
      .ok ({}, loaded.map fun (label, s) => (accountLabel "a" label, s)) := by
  have stem : (Path.ofText "a.json").stem = "a" := by decide +kernel
  have format : FileFormat.ofExtension? (Path.ofText "a.json").extension = some .json := by
    decide +kernel
  have leads : Directory.LeadsTo (Path.ofText "a.json") ⟨false, ["a.json".toUTF8.toList]⟩ :=
    ⟨by decide +kernel, by decide +kernel⟩
  have members : (sole text).members .usual (Path.ofText "a.json") = .ok ms :=
    Directory.members_of_file? leads (Directory.file?_single leads) format read
  have opened : Snapshot.load .usual (sole text) (Path.ofText "a.json") = .ok loaded := by
    rw [Snapshot.load, members, ok_bind, stem]
    exact decoded
  have configured : configured .usual (sole text) (fun _ => none) none = .ok {} := by rfl
  have collected : loadAccounts .usual (sole text) ["a.json"] =
      .ok (loaded.map fun (label, s) => (accountLabel "a" label, s)) := by
    simp only [loadAccounts, List.mapM_cons, List.mapM_nil, opened, stem, ok_bind]
    exact congrArg Except.ok (List.append_nil _)
  rw [load, configured, ok_bind, collected]
  rfl

/-- A file with one account, of which it tells nothing. -/
def unlabelled : Directory := sole "\x7b\"account\":\x7b\x7d\x7d"

/-- A file that labels an account with half of a surrogate pair. -/
def halfLabelled : Directory := sole "\x7b\"accounts\":\x7b\"\\ud800\":\x7b\x7d\x7d\x7d"

end Solvency.CommandLine
