import Solvency.CommandLine.Run

/-! The command-line program. It fetches the files and variables that its arguments may refer to and
leaves everything else to `CommandLine.run`. -/
namespace Solvency

def usage : String := "usage: assess [-h] [--config CONFIG] [--log-level LEVEL] FILE..."

def readable (t : Text) : String := String.ofList (t.filterMap CodePoint.char?)

/-- The content of a file, unless it cannot be read. -/
def fetch (name : Text) : IO (Option (Text × ByteArray)) := do
  try
    let bytes ← IO.FS.readBinFile (readable name)
    pure (some (name, bytes))
  catch _ => pure none

def fetchVariable (s : Setting) : IO (Option (String × Text)) := do
  let value ← IO.getEnv s.variable
  pure (value.map fun v => (s.variable, Text.ofString v))

def Level.name : Level → String
  | .debug => "DEBUG"
  | .info => "INFO"
  | .warning => "WARNING"
  | .error => "ERROR"

/-- A line of the log, as it is written. -/
def LogLine.text (line : LogLine) : String := s!"{line.level.name}: {readable line.message}"

end Solvency

open Solvency in
def main (arguments : List String) : IO UInt32 := do
  let words := arguments.map Text.ofString
  match CommandLine.Request.ofArguments words with
  | .usage =>
    IO.eprintln usage
    pure 2
  | .help =>
    IO.println usage
    pure 0
  | .assess files config _ =>
    let contents ← (files ++ config.toList).filterMapM fetch
    let given ← Setting.all.filterMapM fetchVariable
    let env : Environment := fun name => given.lookup name
    match CommandLine.run Host.usual ⟨contents⟩ env words with
    | .ok exit => do
      for line in exit.log do
        IO.eprintln line.text
      if let some f := exit.complaint then
        IO.eprintln s!"error: {readable f.message}"
      IO.print (String.ofList exit.output)
      pure exit.status.toUInt32
    | .error f =>
      IO.eprintln s!"error: {readable f.message}"
      pure 1
