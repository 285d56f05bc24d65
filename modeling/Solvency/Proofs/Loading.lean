import Solvency.CommandLine.Run
import Solvency.Proofs.FirstOffender

/-! Loading. Whatever keeps a file from being loaded is foreseen, but for what the readers of texts and
of decimals may fail with beyond malformed input, and for values nested too deep to be screened. -/
namespace Solvency

/-- Fails with nothing but faults of one kind. -/
abbrev FailsOnly {α : Type} (P : Fault → Prop) (x : Except Fault α) : Prop := Ends P (fun _ => True) x

namespace FailsOnly

variable {α β : Type} {P : Fault → Prop} {x : Except Fault α}

theorem bind {f : α → Except Fault β} (first : FailsOnly P x) (rest : ∀ a, FailsOnly P (f a)) :
    FailsOnly P (x >>= f) :=
  Ends.bind first fun a _ => rest a

theorem mapM {f : α → Except Fault β} {xs : List α} (step : ∀ a ∈ xs, FailsOnly P (f a)) :
    FailsOnly P (xs.mapM f) :=
  (Ends.mapM step).results fun _ _ => trivial

end FailsOnly

/-- A fault of decoding: a foreseen one, that of a decimal too large to be scaled, or, if something is
too deep, the want of room to screen it. -/
inductive Fault.Decoding (deep : Prop) (f : Fault) : Prop where
  | foreseen (caught : CommandLine.isForeseen f = true)
  | tooLarge (same : f = .field .tooLarge)
  | nesting (same : f = .nesting) (lack : deep)

abbrev Decodes (deep : Prop) {α : Type} (x : Except Fault α) : Prop :=
  FailsOnly (Fault.Decoding deep) x

variable {deep deep' : Prop}

theorem Fault.Decoding.imp {f : Fault} (more : deep → deep') :
    f.Decoding deep → f.Decoding deep'
  | .foreseen caught => .foreseen caught
  | .tooLarge same => .tooLarge same
  | .nesting same lack => .nesting same (more lack)

theorem Decodes.deeper {α : Type} {x : Except Fault α} (decodes : Decodes deep x)
    (more : deep → deep') : Decodes deep' x :=
  decodes.faults fun _ => .imp more

theorem Decodes.fail {α : Type} {f : Fault} (decoding : f.Decoding deep) :
    Decodes deep (fail f : Except Fault α) :=
  Ends.fail decoding fun _ => .foreseen rfl

namespace Document

theorem refusal_foreseen (location : Location) (what : Inexact) :
    CommandLine.isForeseen (refusal location what) = true := by
  cases what with
  | key k =>
    rw [refusal]
    split <;> rfl
  | float | surrogate => rfl

theorem screen_decodes (d : Document) (room : Nat) (place : Location) :
    Decodes (room < d.nesting 1) (d.screen room place) := by
  cases refused : d.screen room place with
  | ok _ => exact True.intro
  | error f =>
    obtain ⟨path, what, _, rfl⟩ | ⟨short, lack⟩ := screen_error refused
    · exact .foreseen (refusal_foreseen _ what)
    · exact .nesting short lack

theorem toMembers_decodes (d : Document) : Decodes deep d.toMembers := by
  unfold toMembers
  split
  · exact True.intro
  · split
    · refine FailsOnly.bind (.mapM fun x _ => ?_) fun _ => trivial
      unfold pair
      split
      · split
        · exact True.intro
        · exact .foreseen rfl
      all_goals exact .foreseen rfl
    · exact .foreseen rfl

end Document

namespace Datum

variable {α : Type} {name : String} {d : Document} {ms : Members}

theorem members_decodes : Decodes deep (members name d) := by
  cases d
  case mapping => trivial
  all_goals exact .fail (.foreseen rfl)

theorem items_decodes : Decodes deep (items name d) := by
  cases d
  case null | list | tuple => trivial
  all_goals exact .fail (.foreseen rfl)

theorem list_decodes {read : String → Document → Except Fault α}
    (each : ∀ name d, Decodes deep (read name d)) : Decodes deep (list name read d) :=
  items_decodes.bind fun _ => .mapM fun _ _ => each _ _

theorem slot_decodes {read : String → Members → Except Fault (Option α)}
    (each : ∀ name ms, Decodes deep (read name ms)) : Decodes deep (slot read name d) := by
  cases d
  case null => trivial
  all_goals exact members_decodes.bind fun _ => each _ _

theorem required_decodes {key : String} : Decodes deep (required ms key) := by
  unfold required
  split
  · exact True.intro
  · exact .fail (.foreseen rfl)

theorem label_decodes : Decodes deep (label d) := by
  unfold label
  split
  · exact True.intro
  · exact .foreseen rfl

theorem eq_text_of_label {t : Text} (named : label d = .ok t) (half : t.hasHalf = true) :
    d = .text t := by
  obtain ⟨_, rfl⟩ := label_eq_ok_iff.mp named
  cases d
  case text => rfl
  all_goals simp [Document.plain, Text.ofString] at half

theorem integer_decodes : Decodes deep (integer name d) := by
  unfold integer
  split
  · exact True.intro
  · split
    · split
      · exact .foreseen rfl
      · exact True.intro
    · exact .fail (.foreseen rfl)
  · exact .fail (.foreseen rfl)

theorem amount_decodes : Decodes deep (amount name d) := by
  unfold amount
  split
  · exact True.intro
  · split
    · exact .fail (.foreseen rfl)
    · dsimp only
      split
      · exact .fail (.tooLarge rfl)
      · split
        · exact True.intro
        · exact .fail (.foreseen rfl)
  · exact .fail (.foreseen rfl)

theorem key_decodes {width : Document} : Decodes deep (key name width d) := by
  unfold key
  split
  · split
    · split
      · exact .fail (.foreseen rfl)
      · split
        · exact .fail (.foreseen rfl)
        · split
          · exact True.intro
          · exact .fail (.foreseen rfl)
    · exact .fail (.foreseen rfl)
  · exact .fail (.foreseen rfl)

end Datum

section Parts

open Datum

variable {name : String} {d : Document} {ms : Members}

theorem Position.ofMembers?_decodes : Decodes deep (Position.ofMembers? name ms) := by
  refine required_decodes.bind fun key => key_decodes.bind fun key => ?_
  split
  · exact True.intro
  · exact integer_decodes.bind fun _ => integer_decodes.bind fun _ => integer_decodes.bind fun _ =>
      integer_decodes.bind fun _ => integer_decodes.bind fun _ => integer_decodes.bind fun _ => trivial

theorem CollateralTerms.ofMembers?_decodes : Decodes deep (CollateralTerms.ofMembers? name ms) :=
  required_decodes.bind fun _ => label_decodes.bind fun _ => required_decodes.bind fun _ =>
    label_decodes.bind fun _ => required_decodes.bind fun _ => integer_decodes.bind fun _ =>
    integer_decodes.bind fun _ => trivial

theorem MarketTerms.ofMembers?_decodes : Decodes deep (MarketTerms.ofMembers? name ms) :=
  required_decodes.bind fun _ => label_decodes.bind fun _ => required_decodes.bind fun _ =>
    integer_decodes.bind fun _ => required_decodes.bind fun _ => integer_decodes.bind fun _ => trivial

theorem Accrual.ofDocument_decodes : Decodes deep (Accrual.ofDocument name d) :=
  members_decodes.bind fun _ => amount_decodes.bind fun _ => amount_decodes.bind fun _ => trivial

theorem PriceEntry.ofDocument_decodes : Decodes deep (PriceEntry.ofDocument name d) :=
  members_decodes.bind fun _ => required_decodes.bind fun _ => label_decodes.bind fun _ =>
    required_decodes.bind fun _ => amount_decodes.bind fun _ => trivial

theorem Account.ofDocument_decodes : Decodes deep (Account.ofDocument d) :=
  members_decodes.bind fun _ => (list_decodes fun _ _ => amount_decodes).bind fun _ =>
    (list_decodes fun _ _ => slot_decodes fun _ _ => Position.ofMembers?_decodes).bind fun _ => trivial

end Parts

namespace Snapshot

open Datum

variable {ms : Members} {given : Document} {host : Host} {stem : Text}

/-- Something that is screened for one snapshot is deeper than there is room for. -/
inductive TooDeep (room : Room) (ms : Members) (given : Document) : Prop where
  | document (deep : room.calls < Document.nesting 1 (.mapping ms))
  | account {own : Members} (kept : given.toMembers = .ok own)
    (deep : room.calls < Document.nesting 1 (.mapping own))

/-- Something that is screened of a file is deeper than there is room for. -/
inductive FileTooDeep (host : Host) (ms : Members) : Prop where
  | alone (single : optional ms "accounts" .null = .null) (deep : TooDeep host.alone ms .null)
  | shared {accounts : Members} {label account : Document}
    (several : optional ms "accounts" .null = .mapping accounts)
    (member : (label, account) ∈ accounts) (deep : TooDeep host.shared ms.shared account)

theorem accountDocument_decodes {room : Room} :
    Decodes (TooDeep room ms given) (accountDocument room ms given) := by
  cases given
  case null => exact required_decodes
  all_goals
    refine (Document.toMembers_decodes _).run.bind fun own ⟨kept, _⟩ => ?_
    exact ((Document.screen_decodes _ _ _).deeper (.account kept)).bind fun _ => trivial

theorem ofMembers_decodes {room : Room} : Decodes (TooDeep room ms given) (ofMembers room ms given) :=
  ((Document.screen_decodes _ _ _).deeper .document).bind fun _ =>
    accountDocument_decodes.bind fun _ => Account.ofDocument_decodes.bind fun _ =>
    (list_decodes fun _ _ => slot_decodes fun _ _ => CollateralTerms.ofMembers?_decodes).bind fun _ =>
    (list_decodes fun _ _ => slot_decodes fun _ _ => MarketTerms.ofMembers?_decodes).bind fun _ =>
    (list_decodes fun _ _ => Accrual.ofDocument_decodes).bind fun _ =>
    (list_decodes fun _ _ => PriceEntry.ofDocument_decodes).bind fun _ =>
    (list_decodes fun _ _ => amount_decodes).bind fun _ =>
    (list_decodes fun _ _ => integer_decodes).bind fun _ => integer_decodes.bind fun _ =>
    integer_decodes.bind fun _ => trivial

theorem allOfMembers_decodes : Decodes (FileTooDeep host ms) (allOfMembers host stem ms) := by
  unfold allOfMembers
  split
  · rename_i single
    exact (ofMembers_decodes.deeper (.alone single)).bind fun _ => trivial
  · refine members_decodes.run.bind fun accounts ⟨several, _⟩ => ?_
    have several := members_eq_ok.mp several
    refine FailsOnly.mapM fun entry member => ?_
    exact label_decodes.bind fun _ =>
      (ofMembers_decodes.deeper (.shared several member)).bind fun _ => trivial

/-- The label of an account is the name of the file, or a key of the accounts that is a text, or the
written form of another key, which has no surrogate half. -/
theorem key_of_allOfMembers {loaded : List (Text × Snapshot)} {label : Text} {s : Snapshot}
    (done : allOfMembers host stem ms = .ok loaded) (member : (label, s) ∈ loaded)
    (half : label.hasHalf = true) : label = stem ∨
    ∃ accounts account, optional ms "accounts" .null = .mapping accounts ∧
      (.text label, account) ∈ accounts := by
  unfold allOfMembers at done
  split at done
  · obtain ⟨_, _, made⟩ := bind_eq_ok.mp done
    cases made
    exact .inl (Prod.mk.inj (List.mem_singleton.mp member)).1
  · obtain ⟨accounts, mapping, done⟩ := bind_eq_ok.mp done
    obtain ⟨⟨key, account⟩, entry, made⟩ := exists_of_mem_mapM done member
    simp only [bind_eq_ok] at made
    obtain ⟨_, named, _, _, made⟩ := made
    cases made
    obtain rfl := eq_text_of_label named half
    exact .inr ⟨accounts, account, members_eq_ok.mp mapping, entry⟩

end Snapshot

/-- The readers of texts. -/
def Host.readers (host : Host) : List (List Char → Except Fault Document) :=
  [host.settings, host.yaml, Json.read host.json]

theorem FileFormat.reader (host : Host) (format : FileFormat) : format.read host ∈ host.readers := by
  cases format <;> simp [Host.readers, read]

namespace Directory

variable {d : Directory} {deep : Prop}

theorem followOutside_decodes {names : List (List UInt8)} : Decodes deep (followOutside names) := by
  induction names with
  | nil => exact .fail (.foreseen rfl)
  | cons name rest ih =>
    rw [followOutside]
    split
    · exact ih
    · exact .fail (.foreseen rfl)

theorem followFrom_decodes {names place : List (List UInt8)} :
    Decodes deep (d.followFrom place names) := by
  induction names generalizing place with
  | nil => exact .fail (.foreseen rfl)
  | cons name rest ih =>
    rw [followFrom]
    split
    · split
      · exact followOutside_decodes
      · exact ih
    · split
      · split
        · exact True.intro
        · exact .fail (.foreseen rfl)
      · exact ih
      · exact .fail (.foreseen rfl)

theorem content_decodes {p : Path} : Decodes deep (d.content p) := by
  unfold content
  split
  · split
    · exact True.intro
    · split
      · exact .fail (.foreseen rfl)
      · split
        · exact .fail (.foreseen rfl)
        · split
          · exact followOutside_decodes
          · exact followFrom_decodes
  · exact .fail (.foreseen rfl)

theorem text_decodes {p : Path} : Decodes deep (d.text p) := by
  refine content_decodes.bind fun bytes => ?_
  split
  · exact True.intro
  · exact Decodes.fail (.foreseen rfl)

/-- A reader ends with the fault on the text of one of the files. -/
def Misread (d : Directory) (host : Host) (paths : List Text) (f : Fault) : Prop :=
  ∃ path ∈ paths, ∃ cs, d.text (Path.ofText path) = .ok cs ∧
    ∃ read ∈ host.readers, read cs = .error f

/-- Something that is screened of one of the files is deeper than there is room for. -/
def TooDeep (d : Directory) (host : Host) (paths : List Text) : Prop :=
  ∃ path ∈ paths, ∃ ms, d.members host (Path.ofText path) = .ok ms ∧ Snapshot.FileTooDeep host ms

/-- A fault in loading some of the files. -/
def LoadFault (d : Directory) (host : Host) (paths : List Text) (f : Fault) : Prop :=
  f.Decoding (d.TooDeep host paths) ∨ d.Misread host paths f

variable {α : Type} {host : Host} {paths : List Text} {path : Text}

theorem loads_of_decodes {x : Except Fault α} (decodes : Decodes (d.TooDeep host paths) x) :
    FailsOnly (d.LoadFault host paths) x :=
  decodes.faults fun _ => .inl

/-- Once the text of a file is read by some reader, the rest is decoding. -/
theorem read_loads {read : List Char → Except Fault Document} {cs : List Char}
    {rest : Document → Except Fault α} (reader : read ∈ host.readers) (listed : path ∈ paths)
    (found : d.text (Path.ofText path) = .ok cs)
    (decodes : ∀ document, Decodes (d.TooDeep host paths) (rest document)) :
    FailsOnly (d.LoadFault host paths) (read cs >>= rest) := by
  refine FailsOnly.bind ?_ fun document => loads_of_decodes (decodes document)
  cases ended : read cs with
  | ok document => exact True.intro
  | error f => exact .inr ⟨path, listed, cs, found, read, reader, ended⟩

theorem members_loads (listed : path ∈ paths) :
    FailsOnly (d.LoadFault host paths) (d.members host (Path.ofText path)) := by
  refine (loads_of_decodes text_decodes).run.bind fun cs ⟨found, _⟩ => ?_
  split
  · exact loads_of_decodes (Decodes.fail (.foreseen rfl))
  · rename_i format _
    refine read_loads (format.reader host) listed found fun document => ?_
    cases document
    case mapping => exact True.intro
    all_goals exact Decodes.fail (.foreseen rfl)

theorem load_loads (listed : path ∈ paths) :
    FailsOnly (d.LoadFault host paths) (Snapshot.load host d (Path.ofText path)) := by
  refine (members_loads listed).run.bind fun ms ⟨opened, _⟩ => ?_
  exact loads_of_decodes
    (Snapshot.allOfMembers_decodes.deeper fun deep => ⟨path, listed, ms, opened, deep⟩)

section Single

/-- The path can be given, and is that of a place. -/
structure LeadsTo (p : Path) (place : Place) : Prop where
  written : p.bytes?.isSome = true
  placed : p.place? = some place

variable {p : Path} {place : Place} {text : String} {format : FileFormat} {ms : Members}

theorem text_of_file? (leads : LeadsTo p place) (held : d.file? place = some text.toUTF8) :
    d.text p = .ok (plainLines text.toList) := by
  obtain ⟨bytes, written⟩ := Option.isSome_iff_exists.mp leads.written
  have found : d.content p = .ok text.toUTF8 := by
    unfold content
    simp only [written, leads.placed, held]
  have decoded : String.fromUTF8? text.toUTF8 = some text := dif_pos text.isValidUTF8
  rw [Directory.text, found, ok_bind, decoded]
  rfl

theorem members_of_file? (leads : LeadsTo p place) (held : d.file? place = some text.toUTF8)
    (named : FileFormat.ofExtension? p.extension = some format)
    (read : format.read host (plainLines text.toList) = .ok (.mapping ms)) :
    d.members host p = .ok ms := by
  rw [members, text_of_file? leads held, ok_bind, named]
  simp only [read, ok_bind]
  rfl

/-- A directory with one file. -/
def single (name : Text) (text : String) : Directory := ⟨[(name, text.toUTF8)]⟩

theorem file?_single {name : Text} (leads : LeadsTo (Path.ofText name) place) :
    (single name text).file? place = some text.toUTF8 := by
  simp [single, file?, leads.placed]

end Single

end Directory

namespace Settings

variable {c : Settings} {d : Directory} {host : Host} {paths : List Text} {path : Text}

theorem checked_decodes : Decodes deep c.checked := by
  unfold checked
  split
  · exact .fail (.foreseen rfl)
  · split
    · exact .fail (.foreseen rfl)
    · split
      · exact .fail (.foreseen rfl)
      · exact True.intro

theorem set_decodes {s : Setting} {value : Document} : Decodes deep (c.set s value) := by
  cases s <;> cases value <;> first | trivial | exact .fail (.foreseen rfl)

theorem setAll_decodes {ms : Members} : Decodes deep (c.setAll ms) := by
  fun_induction setAll c ms with
  | case1 => trivial
  | case2 c key value ms s _ ih => exact set_decodes.bind ih
  | case3 _ _ _ _ _ ih => exact ih
  | case4 _ _ _ _ ih => exact ih

theorem unknownKeys_decodes {keys : List Document} : Decodes deep (unknownKeys keys) := by
  fun_induction unknownKeys keys with
  | case1 => trivial
  | case2 key keys ih => exact ih.bind fun _ => trivial
  | case3 => exact .foreseen rfl

theorem overlay_decodes {ms : Members} : Decodes deep (c.overlay ms) := by
  refine FailsOnly.bind (unknownKeys_decodes.bind fun unknown => ?_) fun _ =>
    setAll_decodes.bind fun _ => checked_decodes
  split
  · exact True.intro
  · exact Decodes.fail (.foreseen rfl)

theorem ofFile_loads (listed : path ∈ paths) :
    FailsOnly (d.LoadFault host paths) (ofFile host d path) := by
  refine (Directory.loads_of_decodes Directory.text_decodes).run.bind fun cs ⟨found, _⟩ => ?_
  refine Directory.read_loads List.mem_cons_self listed found fun document => ?_
  cases document
  case null | mapping => exact overlay_decodes
  all_goals exact Decodes.fail (.foreseen rfl)

theorem load_loads {config : Option Text} {env : Environment}
    (listed : ∀ path ∈ config, path ∈ paths) :
    FailsOnly (d.LoadFault host paths) (load host d config env) := by
  have overlaid (c : Settings) : FailsOnly (d.LoadFault host paths) (c.overlayEnvironment env) :=
    Directory.loads_of_decodes checked_decodes
  cases config with
  | none => exact overlaid {}
  | some path => exact (ofFile_loads (listed path rfl)).bind overlaid

/-- What is loaded is valid, whatever the file and the environment say. -/
theorem valid_of_load {config : Option Text} {env : Environment}
    (done : load host d config env = .ok c) : c.Valid := by
  have overlaid {own : Settings} (done : own.overlayEnvironment env = .ok c) : c.Valid := by
    obtain ⟨valid, rfl⟩ := checked_eq_ok.mp done
    exact valid
  cases config with
  | none => exact overlaid done
  | some path =>
    obtain ⟨own, _, done⟩ := bind_eq_ok.mp done
    exact overlaid done

end Settings

namespace CommandLine

variable {host : Host} {d : Directory} {env : Environment} {files : List Text} {config : Option Text}

/-- The paths of a configuration and of snapshot files. -/
def paths (files : List Text) (config : Option Text) : List Text :=
  config.toList.map (fun name => (Path.ofText name).text) ++ files

theorem configPath_loads : Ends (d.LoadFault host (paths files config))
    (fun path => ∀ own ∈ path, own ∈ paths files config) (configPath config) := by
  unfold configPath
  split
  · simp [Ends]
  · split
    · exact .inl (.foreseen rfl)
    · simp [Ends, paths]

theorem configured_loads :
    FailsOnly (d.LoadFault host (paths files config)) (configured host d env config) :=
  Ends.bind configPath_loads fun _ listed => Settings.load_loads listed

/-- Every fault in loading is one of decoding, or one of a reader. -/
theorem load_loads :
    FailsOnly (d.LoadFault host (paths files config)) (load host d env files config) := by
  refine configured_loads.bind fun c => ?_
  refine FailsOnly.bind ?_ fun _ => trivial
  refine FailsOnly.bind (FailsOnly.mapM fun file member => ?_) fun _ => trivial
  exact (Directory.load_loads (List.mem_append_right _ member)).bind fun _ => trivial

theorem loadAccounts_returns_iff : (∃ accounts, loadAccounts host d files = .ok accounts) ↔
    ∀ file ∈ files, ∃ loaded, Snapshot.load host d (Path.ofText file) = .ok loaded := by
  rw [loadAccounts, bind_pure_returns_iff, mapM_returns_iff]
  simp only [bind_pure_returns_iff]

theorem load_returns_iff : (∃ r, load host d env files config = .ok r) ↔
    (∃ c, configured host d env config = .ok c) ∧
      ∀ file ∈ files, ∃ loaded, Snapshot.load host d (Path.ofText file) = .ok loaded := by
  rw [load, bind_returns_iff fun _ => bind_pure_returns_iff.trans loadAccounts_returns_iff]

theorem valid_of_configured {c : Settings} (done : configured host d env config = .ok c) :
    c.Valid := by
  obtain ⟨_, _, done⟩ := bind_eq_ok.mp done
  exact Settings.valid_of_load done

/-- The file holds accounts by label, one of which is no text of characters. -/
def LabelsHalf (host : Host) (d : Directory) (file : Text) : Prop :=
  ∃ ms accounts t account, d.members host (Path.ofText file) = .ok ms ∧
    Datum.optional ms "accounts" .null = .mapping accounts ∧ (.text t, account) ∈ accounts ∧
    t.hasHalf = true

theorem hasHalf_accountLabel {stem label : Text} (half : (accountLabel stem label).hasHalf = true) :
    stem.hasHalf = true ∨ label.hasHalf = true := by
  unfold accountLabel at half
  split at half
  · exact .inr half
  · simpa [Text.ofString] using half

/-- Only a label spelled out in a file, or the name of a file, is no text of characters. -/
theorem labelsHalf_of_load {accounts : List (Text × Snapshot)} {account : Text × Snapshot}
    (done : loadAccounts host d files = .ok accounts) (member : account ∈ accounts)
    (half : account.1.hasHalf = true) :
    ∃ file ∈ files, (Path.ofText file).stem.hasHalf = true ∨ LabelsHalf host d file := by
  obtain ⟨loaded, read, made⟩ := bind_eq_ok.mp done
  cases made
  obtain ⟨own, listed, member⟩ := List.mem_flatten.mp member
  obtain ⟨file, named, done⟩ := exists_of_mem_mapM read listed
  obtain ⟨pairs, kept, made⟩ := bind_eq_ok.mp done
  cases made
  obtain ⟨⟨label, s⟩, pair, rfl⟩ := List.mem_map.mp member
  refine ⟨file, named, ?_⟩
  rcases hasHalf_accountLabel half with stem | half
  · exact .inl stem
  · obtain ⟨ms, opened, kept⟩ := bind_eq_ok.mp kept
    rcases Snapshot.key_of_allOfMembers kept pair half with rfl | ⟨keyed, account, mapping, entry⟩
    · exact .inl half
    · exact .inr ⟨ms, keyed, label, account, opened, mapping, entry, half⟩

end CommandLine
end Solvency
