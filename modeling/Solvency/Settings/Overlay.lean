import Solvency.Document.Pairs
import Solvency.Settings.Basic
import Solvency.PriceTable

/-! Settings from a document. It is read strictly: it may name nothing but known settings, and each
has to be of its own kind. Names alone, without values, set nothing. -/
namespace Solvency

inductive Setting where
  | initialRequirement
  | maintenanceRequirement
  | retries
  | fudge
  | validates
  deriving DecidableEq, Repr

def Setting.all : List Setting :=
  [.initialRequirement, .maintenanceRequirement, .retries, .fudge, .validates]

def Setting.key : Setting → String
  | .initialRequirement => "spot_initial_margin_req"
  | .maintenanceRequirement => "spot_maint_margin_req"
  | .retries => "submit_retries"
  | .fudge => "liquidation_fudge_permille"
  | .validates => "validate_snapshots"

def Setting.ofKey? (key : Text) : Option Setting :=
  Setting.all.find? fun s => Text.ofString s.key = key

namespace Settings

/-- The settings with one of them taken from a document. -/
def set (c : Settings) (s : Setting) (d : Document) : Except Fault Settings :=
  let mistyped (cause : ConfigFault) : Except Fault Settings := fail (.margin (.config cause))
  match s, d with
  | .validates, .bool b => .ok { c with validates := b }
  | .validates, _ => mistyped (.notBool (Text.ofString s.key))
  | .fudge, .null => .ok { c with fudge := none }
  | .fudge, .integer n => .ok { c with fudge := some n }
  | .initialRequirement, .integer n =>
    .ok { c with requirements := { c.requirements with initial := n } }
  | .maintenanceRequirement, .integer n =>
    .ok { c with requirements := { c.requirements with maintenance := n } }
  | .retries, .integer n => .ok { c with retries := n }
  | s, _ => mistyped (.notInt (Text.ofString s.key))

/-- The keys that are no settings, each once. Only texts can be listed in order. -/
def unknownKeys : List Document → Except Fault (List Text)
  | [] => .ok []
  | .text key :: keys => do
    let unknown ← unknownKeys keys
    pure (if (Setting.ofKey? key).isSome || unknown.contains key then unknown else key :: unknown)
  | _ => .error .unorderedKeys

/-- Lets keys pass that are all settings. -/
def checkKeys (keys : List Document) : Except Fault Unit := do
  match ← unknownKeys keys with
  | [] => pure ()
  | unknown =>
    fail (.margin (.config (.unknownKeys (sortOrdered (fun a b => b.before a) unknown))))

def setAll (c : Settings) : Members → Except Fault Settings
  | [] => .ok c
  | (.text key, d) :: ms =>
    match Setting.ofKey? key with
    | some s => do
      let c ← c.set s d
      setAll c ms
    | none => setAll c ms
  | _ :: ms => setAll c ms

/-- Settings with those in a mapping in place of their own. -/
def overlay (c : Settings) (ms : Members) : Except Fault Settings := do
  checkKeys (ms.map (·.1))
  let c ← c.setAll ms
  c.checked

/-- Settings with those in a document in place of their own. -/
def overlayDocument (c : Settings) : Document → Except Fault Settings
  | .mapping ms => c.overlay ms
  | d =>
    match d.items? with
    | some keys => do
      checkKeys keys
      .error .noMembers
    | none => .error .noKeys

end Settings
end Solvency
