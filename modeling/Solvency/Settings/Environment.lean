import Solvency.Arithmetic.Factor
import Solvency.Settings.Overlay
import Solvency.Log
import Solvency.Text.DecimalDigit
import Solvency.Text.Quoted

/-! Settings from environment variables. They are read leniently: a blank variable counts as absent, a
number out of range is moved into it, and what is no integer is ignored with a warning. -/
namespace Solvency

/-- The variables that are set, by name. -/
abbrev Environment := String → Option Text

namespace Environment

/-- The text of a variable, unless it is blank. -/
def given? (env : Environment) (name : String) : Option Text :=
  (env name).filter fun t => !t.isBlank

/-- The integer of a variable, moved into `lo` to `hi`; the fallback where none is given. -/
def integer (env : Environment) (name : String) (fallback lo hi : Int) : Int :=
  match env.given? name with
  | none => fallback
  | some t =>
    match t.trim.integer? with
    | some n => max lo (min n hi)
    | none => fallback

/-- The warning about a variable that is ignored. -/
def warnings (env : Environment) (name : String) : List LogLine :=
  match env.given? name with
  | none => []
  | some t =>
    if t.trim.integer?.isSome then []
    else [⟨.warning, Text.ofString s!"ignoring non-integer {name}={t.quoted}"⟩]

def yes : List String := ["1", "true", "yes", "on"]

def truth (env : Environment) (name : String) (fallback : Bool) : Bool :=
  match env.given? name with
  | none => fallback
  | some t => yes.any fun word => Text.ofString word = t.trim.lowerAscii

end Environment

def Setting.variable : Setting → String
  | .initialRequirement => "LIQRISK_SPOT_INITIAL_MARGIN_REQ"
  | .maintenanceRequirement => "LIQRISK_SPOT_MAINT_MARGIN_REQ"
  | .retries => "LIQRISK_SUBMIT_RETRIES"
  | .fudge => "LIQRISK_LIQUIDATION_FUDGE_PERMILLE"
  | .validates => "LIQRISK_VALIDATE_SNAPSHOTS"

namespace Settings

/-- The fudge falls back to its own value, or to one whole where the variable is set in vain. -/
def fudgeIn (c : Settings) (env : Environment) : Option Int :=
  if (env.given? Setting.fudge.variable).isSome then
    some (env.integer Setting.fudge.variable (c.fudge.getD oneWhole) 1 greatestFudge)
  else c.fudge

/-- Settings with those in the environment in place of their own. -/
def overlayEnvironment (c : Settings) (env : Environment) : Except Fault Settings :=
  let requirement (s : Setting) (own : Int) : Int :=
    env.integer s.variable own 1 greatestRequirement
  checked {
    requirements :=
      { initial := requirement .initialRequirement c.requirements.initial
        maintenance := requirement .maintenanceRequirement c.requirements.maintenance }
    retries := env.integer Setting.retries.variable c.retries 1 greatestRetries
    fudge := c.fudgeIn env
    validates := env.truth Setting.validates.variable c.validates }

/-- The settings that are integers, in the order in which they are looked up. -/
def integerSettings : List Setting :=
  [.fudge, .initialRequirement, .maintenanceRequirement, .retries]

def environmentLog (env : Environment) : List LogLine :=
  integerSettings.flatMap fun s => env.warnings s.variable

end Settings
end Solvency
