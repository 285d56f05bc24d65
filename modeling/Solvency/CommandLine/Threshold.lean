import Solvency.Fault
import Solvency.Log

/-! Which log lines are written. A name, in upper case, picks a threshold among the constants that
logging has; a name that none of them has leaves it at warnings. Two of the constants are no
severities, and logging cannot be set up with them. -/
namespace Solvency

def Level.severity : Level → Nat
  | .debug => 10
  | .info => 20
  | .warning => 30
  | .error => 40

/-- The upper case of a code point, exact where it has no more than ASCII letters in it. -/
def CodePoint.upper : CodePoint → Text
  | .half h => [.half h]
  | .char c =>
    match c with
    | 'ı' => "I"
    | 'ſ' => "S"
    | 'ß' => "SS"
    | 'ﬀ' => "FF"
    | 'ﬁ' => "FI"
    | 'ﬂ' => "FL"
    | 'ﬃ' => "FFI"
    | 'ﬄ' => "FFL"
    | 'ﬅ' => "ST"
    | 'ﬆ' => "ST"
    | c => [.char c.toUpper]

namespace CommandLine

/-- The names of severities, and from which on lines are written. -/
def severities : List (String × Nat) :=
  [("CRITICAL", 50), ("FATAL", 50), ("ERROR", 40), ("WARNING", 30), ("WARN", 30), ("INFO", 20),
   ("DEBUG", 10), ("NOTSET", 0)]

def threshold (name : Text) : Except Fault Nat :=
  let name := name.flatMap CodePoint.upper
  match severities.find? fun s => Text.ofString s.1 = name with
  | some (_, least) => .ok least
  | none =>
    if name = "BASIC_FORMAT" then .error .unknownLevel
    else if name = "_STYLES" then .error .notLevel
    else .ok Level.warning.severity

/-- The lines that a threshold lets through. -/
def written (least : Nat) (lines : List LogLine) : List LogLine :=
  lines.filter fun line => least ≤ line.level.severity

end CommandLine
end Solvency
