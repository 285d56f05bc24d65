import Solvency.File.Directory
import Solvency.Host
import Solvency.Settings.Environment

/-! Settings from a file and the environment: a variable wins over the file, the file over the
default. -/
namespace Solvency.Settings

/-- The settings of a YAML file, which may be empty; the path is named as it was given. -/
def ofFile (host : Host) (d : Directory) (path : Text) : Except Fault Settings := do
  let cs ← d.text (Path.ofText path)
  match ← host.settings cs with
  | .null => overlay {} []
  | .mapping ms => overlay {} ms
  | _ => fail (.margin (.config (.notMapping path)))

def load (host : Host) (d : Directory) (path : Option Text) (env : Environment) :
    Except Fault Settings := do
  let c ← match path with
    | some path => ofFile host d path
    | none => pure {}
  c.overlayEnvironment env

/-- The lines that loading logs: that the file is loaded, and then those about the environment. -/
def loadLog (host : Host) (d : Directory) (path : Option Text) (env : Environment) :
    List LogLine :=
  match path with
  | none => environmentLog env
  | some path =>
    match ofFile host d path with
    | .ok _ => ⟨.debug, "loaded config file " ++ path⟩ :: environmentLog env
    | .error _ => []

end Solvency.Settings
