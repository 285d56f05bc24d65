import Solvency.Assessment.Sweep
import Solvency.CommandLine.Arguments
import Solvency.CommandLine.Threshold
import Solvency.Settings.Load
import Solvency.Document.Encoding
import Solvency.Snapshot.Load

/-! The command: it sets up logging, loads the configuration and all snapshot files, assesses every
account, and writes the report as one line. The exit status tells whether all accounts could be
assessed, some could not, or the input could not be loaded. -/
namespace Solvency.CommandLine

/-- The exit status of a run, what it writes to its output, the log lines that it writes, and what it
says is wrong with its input. -/
structure Exit where
  status : Nat
  output : List Char := []
  log : List LogLine := []
  complaint : Option Fault := none

/-- The label of an account in a report over several files. -/
def accountLabel (stem label : Text) : Text := if label = stem then label else stem ++ ":" ++ label

/-- The labelled accounts of all files, in the order of the files. -/
def loadAccounts (host : Host) (d : Directory) (files : List Text) :
    Except Fault (List (Text × Snapshot)) := do
  let loaded ← files.mapM fun file => do
    let p := Path.ofText file
    let accounts ← Snapshot.load host d p
    pure (accounts.map fun (label, s) => (accountLabel p.stem label, s))
  pure loaded.flatten

/-- The file of the configuration, if one is given. What is given as `--` is no file. -/
def configPath : Option Text → Except Fault (Option Text)
  | none => .ok none
  | some name => if name = terminator then .error .noPath else .ok (some (Path.ofText name).text)

def configured (host : Host) (d : Directory) (env : Environment) (config : Option Text) :
    Except Fault Settings := do
  let path ← configPath config
  Settings.load host d path env

/-- The lines that are logged with the configuration. -/
def configuredLog (host : Host) (d : Directory) (env : Environment) (config : Option Text) :
    List LogLine :=
  match configPath config with
  | .ok path => Settings.loadLog host d path env
  | .error _ => []

/-- The configuration and the accounts to assess. -/
def load (host : Host) (d : Directory) (env : Environment) (files : List Text)
    (config : Option Text) : Except Fault (Settings × List (Text × Snapshot)) := do
  let c ← configured host d env config
  let accounts ← loadAccounts host d files
  pure (c, accounts)

/-- The run ends with an error message; the other faults in loading are not foreseen. -/
def isForeseen : Fault → Bool
  | .margin (.config _) => true
  | .margin _ => false
  | .field .tooLarge => false
  | .slotOutOfRange => false
  | .codePointTooLarge => false
  | .floatRange => false
  | .nesting => false
  | .noMembers => false
  | _ => true

def report (host : Host) (c : Settings) (accounts : List (Text × Snapshot)) : Except Fault Exit := do
  let s ← c.sweep accounts
  let line ← s.report.toDocument.canonical host.screening host.encoding
  pure { status := if s.report.ok then 0 else 1, output := line.toList ++ ['\n'], log := s.log }

/-- Assesses the accounts of the files. -/
def assess (host : Host) (d : Directory) (env : Environment) (files : List Text)
    (config : Option Text) : Except Fault Exit :=
  let log := configuredLog host d env config
  match load host d env files config with
  | .ok (c, accounts) => do
    let exit ← report host c accounts
    pure { exit with log := log ++ exit.log }
  | .error f => if isForeseen f then .ok { status := 2, log, complaint := some f } else .error f

def run (host : Host) (d : Directory) (env : Environment) (arguments : List Text) :
    Except Fault Exit :=
  match Request.ofArguments arguments with
  | .usage => .ok { status := 2 }
  | .help => .ok { status := 0 }
  | .assess files config level => do
    let least ← threshold level
    let exit ← assess host d env files config
    pure { exit with log := written least exit.log }

end Solvency.CommandLine
