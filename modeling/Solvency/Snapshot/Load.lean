import Solvency.File.Directory
import Solvency.Host
import Solvency.Json.Value
import Solvency.Snapshot.Decode

/-! Snapshots from files. A file holds one account beside its protocol data, or under `accounts`
many accounts by label that share it; a single one goes by the name of its file. -/
namespace Solvency

inductive FileFormat where
  | yaml
  | json
  deriving DecidableEq, Repr

/-- The format that an extension names, in either case. -/
def FileFormat.ofExtension? (extension : Text) : Option FileFormat :=
  let lower := extension.lowerAscii
  if lower = ".yaml" ∨ lower = ".yml" then some .yaml
  else if lower = ".json" then some .json
  else none

def FileFormat.read (host : Host) : FileFormat → List Char → Except Fault Document
  | .yaml => host.yaml
  | .json => Json.read host.json

/-- The members that the accounts of a file share. -/
def sharedFields : List String :=
  ["total_collaterals", "total_markets", "collaterals", "perp_markets", "borrows", "oracles",
   "mark_prices", "funding_indices"]

def Members.shared (ms : Members) : Members :=
  sharedFields.filterMap fun key => (ms.get? key).map fun d => (.text (Text.ofString key), d)

/-- The members of the mapping in a file. -/
def Directory.members (d : Directory) (host : Host) (p : Path) : Except Fault Members := do
  let cs ← d.text p
  match FileFormat.ofExtension? p.extension with
  | none => fail (.file (.format p.extension))
  | some format => do
    match ← format.read host cs with
    | .mapping ms => pure ms
    | _ => fail (.file (.notMapping p.text))

namespace Snapshot

/-- The labelled snapshots in the members of a file that is called `stem`. -/
def allOfMembers (host : Host) (stem : Text) (ms : Members) :
    Except Fault (List (Text × Snapshot)) :=
  match Datum.optional ms "accounts" .null with
  | .null => do
    let s ← ofMembers host.alone ms .null
    pure [(stem, s)]
  | accounts => do
    let accounts ← Datum.members "accounts" accounts
    accounts.mapM fun (key, account) => do
      let label ← Datum.label key
      let s ← ofMembers host.shared ms.shared account
      pure (label, s)

def load (host : Host) (d : Directory) (p : Path) : Except Fault (List (Text × Snapshot)) := do
  let ms ← d.members host p
  allOfMembers host p.stem ms

/-- The snapshot of a file with exactly one account; the path is named as it was given. -/
def loadOne (host : Host) (d : Directory) (path : Text) : Except Fault Snapshot := do
  match ← load host d (Path.ofText path) with
  | [(_, s)] => pure s
  | loaded => fail (.file (.accountCount path loaded.length))

end Snapshot
end Solvency
