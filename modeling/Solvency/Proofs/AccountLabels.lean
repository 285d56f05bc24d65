import Mathlib.Data.List.Nodup
import Mathlib.Data.List.Pairwise
import Solvency.Proofs.CommandRun
import Solvency.Proofs.DistinctKeys

/-! Labels of accounts in a report over several files. The name of its file stands in front of a label,
with a colon between them, but an account that goes by the name of its file has that name alone. No
two accounts share a label unless a file has two keys with one text or the name of one file goes on
as that of another with a colon. -/
namespace Solvency

section Entries

variable {accounts : List (Text × Snapshot)} {account : Text × Snapshot}

theorem Settings.label_of_failure? {c : Settings} {f : Failure} (failed : c.failure? account = some f) :
    f.label = account.1 := by
  unfold failure? at failed
  split at failed
  · cases failed
    rfl
  · cases failed

/-- Of the accounts, just one has the label. -/
def Identifies (accounts : List (Text × Snapshot)) (label : Text) (account : Text × Snapshot) : Prop :=
  accounts.filter (fun a => a.1 = label) = [account]

theorem identifies_of_nodup (nodup : (accounts.map (·.1)).Nodup) (member : account ∈ accounts) :
    Identifies accounts account.1 account := by
  induction accounts with
  | nil => cases member
  | cons first rest ih =>
    rw [List.map_cons, List.nodup_cons] at nodup
    obtain ⟨absent, nodup⟩ := nodup
    rw [Identifies, List.filter_cons]
    rcases List.mem_cons.mp member with rfl | later
    · have others : ∀ a ∈ rest, a.1 ≠ account.1 := fun a listed same =>
        absent (same ▸ List.mem_map_of_mem listed)
      have none : rest.filter (fun a => a.1 = account.1) = [] :=
        List.filter_eq_nil_iff.mpr fun a listed => by simpa using others a listed
      simp [none]
    · have other : first.1 ≠ account.1 := fun same => absent (same ▸ List.mem_map_of_mem later)
      rw [if_neg (by simpa using other)]
      exact ih nodup later

/-- Every entry of the report is about the one account that has its label. -/
structure Report.Unambiguous (r : Report) (c : Settings) (accounts : List (Text × Snapshot)) :
    Prop where
  assessments : ∀ a ∈ r.assessments, ∃ account,
    Identifies accounts a.label account ∧ c.alone account = .ok a
  failures : ∀ f ∈ r.failures, ∃ account,
    Identifies accounts f.label account ∧ c.failure? account = some f
  liquidatable : ∀ label ∈ r.liquidatable, ∃ account a,
    Identifies accounts label account ∧ c.alone account = .ok a ∧ a.liquidatable = true

theorem Report.Covers.unambiguous {r : Report} {c : Settings} (covers : r.Covers c accounts)
    (nodup : (accounts.map (·.1)).Nodup) : r.Unambiguous c accounts := by
  have assessed : ∀ a ∈ r.assessments, ∃ account,
      Identifies accounts a.label account ∧ c.alone account = .ok a := by
    intro a listed
    rw [covers.assessments] at listed
    obtain ⟨account, member, own⟩ := List.mem_filterMap.mp listed
    have done := toOption_eq_some.mp own
    rw [(Snapshot.assess_short done).1]
    exact ⟨account, identifies_of_nodup nodup member, done⟩
  exact {
    assessments := assessed
    failures := fun f listed => by
      rw [covers.failures] at listed
      obtain ⟨account, member, own⟩ := List.mem_filterMap.mp listed
      rw [Settings.label_of_failure? own]
      exact ⟨account, identifies_of_nodup nodup member, own⟩
    liquidatable := fun label listed => by
      obtain ⟨a, kept, rfl⟩ := List.mem_map.mp listed
      obtain ⟨kept, due⟩ := List.mem_filter.mp kept
      obtain ⟨account, only, own⟩ := assessed a kept
      exact ⟨account, a, only, own, due⟩ }

end Entries

namespace CommandLine

section Labels

variable {stem stem' label label' : Text}

theorem accountLabel_stem (stem : Text) : accountLabel stem stem = stem := if_pos rfl

theorem accountLabel_of_ne (other : label ≠ stem) :
    accountLabel stem label = stem ++ ":" ++ label := if_neg other

theorem colon_append (t : Text) : Text.ofString ":" ++ t = .char ':' :: t := rfl

theorem stem_ne_qualified (stem more : Text) : stem ≠ stem ++ ":" ++ more := by
  intro same
  have lengths := congrArg List.length same
  simp [Text.ofString, Text.ofChars] at lengths

/-- In one file, labels stay apart. -/
theorem accountLabel_inj : accountLabel stem label = accountLabel stem label' ↔ label = label' := by
  constructor
  · intro same
    by_cases own : label = stem <;> by_cases own' : label' = stem
    · exact own.trans own'.symm
    · rw [own, accountLabel_stem, accountLabel_of_ne own'] at same
      exact absurd same (stem_ne_qualified _ _)
    · rw [own', accountLabel_stem, accountLabel_of_ne own] at same
      exact absurd same.symm (stem_ne_qualified _ _)
    · rw [accountLabel_of_ne own, accountLabel_of_ne own'] at same
      exact List.append_cancel_left same
  · exact congrArg _

/-- The second file is called as the first one, with a colon and more, and the label in the first file
starts with what there is more. -/
def Overlaps (stem label stem' label' : Text) : Prop :=
  label ≠ stem ∧ ∃ more, stem' = stem ++ ":" ++ more ∧
    label = if label' = stem' then more else more ++ ":" ++ label'

theorem Overlaps.same (overlaps : Overlaps stem label stem' label') :
    accountLabel stem label = accountLabel stem' label' := by
  obtain ⟨other, more, longer, rest⟩ := overlaps
  rw [accountLabel_of_ne other, rest]
  split
  · rename_i own
    rw [own, accountLabel_stem, longer]
  · rename_i other'
    rw [accountLabel_of_ne other', longer]
    simp only [List.append_assoc]

/-- Of two equal qualified labels, the one with the shorter stem is of the first file. -/
theorem overlaps_of_append {more : Text} (apart : stem ≠ stem') (other : label ≠ stem)
    (other' : label' ≠ stem') (longer : stem' = stem ++ more)
    (rest : ":" ++ label = more ++ (":" ++ label')) : Overlaps stem label stem' label' := by
  cases more with
  | nil => exact absurd (by rw [longer, List.append_nil]) apart
  | cons p more =>
    rw [colon_append, List.cons_append] at rest
    obtain ⟨rfl, starts⟩ := List.cons.inj rest
    refine ⟨other, more, ?_, ?_⟩
    · rw [longer, List.append_assoc, colon_append]
    · rw [starts, if_neg other', List.append_assoc]

/-- Labels from files of different names are the same only where a name goes on as another. -/
theorem accountLabel_eq_iff (apart : stem ≠ stem') :
    accountLabel stem label = accountLabel stem' label' ↔
      Overlaps stem label stem' label' ∨ Overlaps stem' label' stem label := by
  constructor
  · intro same
    by_cases own : label = stem <;> by_cases own' : label' = stem'
    · rw [own, own', accountLabel_stem, accountLabel_stem] at same
      exact absurd same apart
    · rw [own, accountLabel_stem, accountLabel_of_ne own'] at same
      exact .inr ⟨own', label', same, (if_pos own).symm⟩
    · rw [own', accountLabel_stem, accountLabel_of_ne own] at same
      exact .inl ⟨own, label, same.symm, (if_pos own').symm⟩
    · rw [accountLabel_of_ne own, accountLabel_of_ne own', List.append_assoc, List.append_assoc]
        at same
      rcases List.append_eq_append_iff.mp same with ⟨_, longer, rest⟩ | ⟨_, longer, rest⟩
      · exact .inl (overlaps_of_append apart own own' longer rest)
      · exact .inr (overlaps_of_append apart.symm own' own longer rest)
  · rintro (overlaps | overlaps)
    · exact overlaps.same
    · exact overlaps.same.symm

end Labels

section Files

variable {host : Host} {d : Directory} {files : List Text} {accounts : List (Text × Snapshot)}

/-- What a file is called in labels. -/
def stem (file : Text) : Text := (Path.ofText file).stem

/-- The labels that a file gives its accounts. -/
def labels (host : Host) (d : Directory) (file : Text) : List Text :=
  ((Snapshot.load host d (Path.ofText file)).toOption.getD []).map (·.1)

/-- Accounts that a file holds by label are labelled with texts. -/
def LabelledByTexts (host : Host) (d : Directory) (file : Text) : Prop :=
  ∀ ms keyed, d.members host (Path.ofText file) = .ok ms →
    Datum.optional ms "accounts" .null = .mapping keyed → Members.Textual keyed

/-- The labels of all accounts, each with the name of its file. -/
theorem map_loadAccounts (done : loadAccounts host d files = .ok accounts) : accounts.map (·.1) =
    files.flatMap fun file => (labels host d file).map (accountLabel (stem file)) := by
  obtain ⟨loaded, read, made⟩ := bind_eq_ok.mp done
  cases made
  have each : loaded.map (·.map (·.1)) =
      files.map fun file => (labels host d file).map (accountLabel (stem file)) := by
    refine map_of_mapM (fun file _ step => ?_) read
    obtain ⟨own, opened, made⟩ := bind_eq_ok.mp step
    cases made
    rw [labels, opened, List.map_map, Except.toOption, Option.getD_some, List.map_map]
    rfl
  rw [List.map_flatten, each, List.flatMap_def]

/-- A file of accounts labels them with the texts of their keys. -/
theorem labels_eq {file : Text} {loaded : List (Text × Snapshot)}
    (done : Snapshot.load host d (Path.ofText file) = .ok loaded) :
    loaded.map (·.1) = [stem file] ∨ ∃ ms keyed, d.members host (Path.ofText file) = .ok ms ∧
      Datum.optional ms "accounts" .null = .mapping keyed ∧
      loaded.map (·.1) = keyed.map (·.1.plain) := by
  obtain ⟨ms, opened, done⟩ := bind_eq_ok.mp done
  unfold Snapshot.allOfMembers at done
  split at done
  · obtain ⟨_, _, made⟩ := bind_eq_ok.mp done
    cases made
    exact .inl (by rw [List.map_singleton, stem])
  · obtain ⟨keyed, mapping, done⟩ := bind_eq_ok.mp done
    refine .inr ⟨ms, keyed, opened, Datum.members_eq_ok.mp mapping, ?_⟩
    refine map_of_mapM (fun account l step => ?_) done
    obtain ⟨label, named, step⟩ := bind_eq_ok.mp step
    obtain ⟨_, _, made⟩ := bind_eq_ok.mp step
    obtain ⟨_, text⟩ := Datum.label_eq_ok_iff.mp named
    cases made
    exact text

/-- Texts as labels stay apart where no mapping that is read holds a key twice. -/
theorem labels_nodup {file : Text}
    (apart : ∀ ms, d.members host (Path.ofText file) = .ok ms →
      (Document.mapping ms).Composed Members.Apart)
    (texts : LabelledByTexts host d file) : (labels host d file).Nodup := by
  unfold labels
  cases read : Snapshot.load host d (Path.ofText file) with
  | error _ => exact List.nodup_nil
  | ok loaded =>
    rw [Except.toOption, Option.getD_some]
    rcases labels_eq read with one | ⟨ms, keyed, opened, found, keys⟩
    · rw [one]
      exact List.nodup_singleton _
    · rw [keys]
      exact ((apart ms opened).optional found).nodup (texts ms keyed opened found)

theorem labels_of_json {file : Text}
    (json : FileFormat.ofExtension? (Path.ofText file).extension = some .json) :
    LabelledByTexts host d file ∧ (labels host d file).Nodup := by
  have texts : LabelledByTexts host d file := fun ms keyed opened found =>
    ((Directory.members_keyed json opened).optional found).textual
  refine ⟨texts, labels_nodup (fun ms opened => ?_) texts⟩
  exact (Directory.members_keyed json opened).mono fun _ => Json.Keyed.apart

/-- The labels of two files have one in common only if they overlap. -/
theorem disjoint_iff {file file' : Text} (apart : stem file ≠ stem file') :
    ((labels host d file).map (accountLabel (stem file))).Disjoint
        ((labels host d file').map (accountLabel (stem file'))) ↔
      ∀ label ∈ labels host d file, ∀ label' ∈ labels host d file',
        ¬ (Overlaps (stem file) label (stem file') label' ∨
          Overlaps (stem file') label' (stem file) label) := by
  rw [List.disjoint_left]
  constructor
  · intro none label own label' own' overlaps
    refine none (List.mem_map_of_mem own) ?_
    rw [(accountLabel_eq_iff apart).mpr overlaps]
    exact List.mem_map_of_mem own'
  · intro none t listed listed'
    obtain ⟨label, own, rfl⟩ := List.mem_map.mp listed
    obtain ⟨label', own', same⟩ := List.mem_map.mp listed'
    exact none label own label' own' ((accountLabel_eq_iff apart).mp same.symm)

theorem not_overlaps_self {stem label label' : Text} : ¬ Overlaps stem label stem label' :=
  fun ⟨_, more, longer, _⟩ => stem_ne_qualified stem more longer

theorem nodup_labels_iff (stems : (files.map stem).Nodup)
    (done : loadAccounts host d files = .ok accounts) :
    (accounts.map (·.1)).Nodup ↔ (∀ file ∈ files, (labels host d file).Nodup) ∧
      ∀ file ∈ files, ∀ file' ∈ files, ∀ label ∈ labels host d file, ∀ label' ∈ labels host d file',
        ¬ Overlaps (stem file) label (stem file') label' := by
  have injective (stem : Text) : Function.Injective (accountLabel stem) :=
    fun _ _ => accountLabel_inj.mp
  rw [map_loadAccounts done, List.nodup_flatMap]
  simp only [List.nodup_map_iff (injective _)]
  have apart : ∀ file ∈ files, ∀ file' ∈ files, file ≠ file' → stem file ≠ stem file' :=
    fun file listed file' listed' other same =>
      other (List.inj_on_of_nodup_map stems listed listed' same)
  refine and_congr_right fun _ => ⟨fun disjoint => ?_, fun none => ?_⟩
  · intro file listed file' listed' label own label' own' overlaps
    have other : file ≠ file' := by
      rintro rfl
      exact not_overlaps_self overlaps
    have symmetric : Std.Symm (Function.onFun List.Disjoint fun file =>
        (labels host d file).map (accountLabel (stem file))) := ⟨fun _ _ => List.Disjoint.symm⟩
    have disjoint := (disjoint_iff (apart _ listed _ listed' other)).mp
      (disjoint.forall listed listed' other)
    exact disjoint label own label' own' (.inl overlaps)
  · refine stems.of_map.pairwise_of_forall_ne fun file listed file' listed' other => ?_
    refine (disjoint_iff (apart _ listed _ listed' other)).mpr fun label own label' own' => ?_
    rintro (overlaps | overlaps)
    · exact none file listed file' listed' label own label' own' overlaps
    · exact none file' listed' file listed label' own' label own overlaps

theorem Overlaps.colon_mem {stem label stem' label' : Text}
    (overlaps : Overlaps stem label stem' label') : CodePoint.char ':' ∈ stem' := by
  obtain ⟨_, more, rfl, _⟩ := overlaps
  rw [List.append_assoc, colon_append]
  exact List.mem_append_right _ List.mem_cons_self

theorem nodup_of_no_colon (stems : (files.map stem).Nodup)
    (done : loadAccounts host d files = .ok accounts)
    (plain : ∀ file ∈ files, (labels host d file).Nodup ∧ CodePoint.char ':' ∉ stem file) :
    (accounts.map (·.1)).Nodup := by
  rw [nodup_labels_iff stems done]
  constructor
  · intro file listed
    exact (plain file listed).1
  · intro _ _ file' listed' _ _ _ _ overlaps
    exact (plain file' listed').2 overlaps.colon_mem

/-- The labels of all accounts from files of different names differ exactly if those of each file do and
those of no two files overlap, which takes a colon in the name of one. Those of a file do where they
are texts, as in JSON they are, as long as no mapping that is read holds a key twice. Each entry of a
report then is about the one account that has its label. -/
theorem accountLabels_nodup (host : Host) (d : Directory) (files : List Text)
    (accounts : List (Text × Snapshot)) (stems : (files.map stem).Nodup)
    (done : loadAccounts host d files = .ok accounts) :
    ((accounts.map (·.1)).Nodup ↔ (∀ file ∈ files, (labels host d file).Nodup) ∧
      ∀ file ∈ files, ∀ file' ∈ files, ∀ label ∈ labels host d file, ∀ label' ∈ labels host d file',
        ¬ Overlaps (stem file) label (stem file') label') ∧
    (host.ReadsApart → ∀ file ∈ files, LabelledByTexts host d file → (labels host d file).Nodup) ∧
    (∀ file ∈ files, FileFormat.ofExtension? (Path.ofText file).extension = some .json →
      LabelledByTexts host d file ∧ (labels host d file).Nodup) ∧
    ((∀ file ∈ files, (labels host d file).Nodup ∧ CodePoint.char ':' ∉ stem file) →
      (accounts.map (·.1)).Nodup) ∧
    ((accounts.map (·.1)).Nodup →
      ∀ (c : Settings) (s : Sweep), c.sweep accounts = .ok s → s.report.Unambiguous c accounts) := by
  refine ⟨nodup_labels_iff stems done,
    fun reads _ _ => labels_nodup fun _ => Directory.members_apart reads,
    fun _ _ => labels_of_json, nodup_of_no_colon stems done, ?_⟩
  intro nodup c s swept
  exact (Settings.sweep_covers swept).unambiguous nodup

end Files

section Pairs

/-- A directory with two files. -/
def pair (name : Text) (text : String) (name' : Text) (text' : String) : Directory :=
  ⟨[(name, text.toUTF8), (name', text'.toUTF8)]⟩

variable {name name' : Text} {text text' : String} {place place' : Place}

theorem file?_pair (leads : Directory.LeadsTo (Path.ofText name) place) :
    (pair name text name' text').file? place = some text.toUTF8 := by
  simp [pair, Directory.file?, leads.placed]

theorem file?_pair' (leads : Directory.LeadsTo (Path.ofText name) place)
    (leads' : Directory.LeadsTo (Path.ofText name') place') (apart : place ≠ place') :
    (pair name text name' text').file? place' = some text'.toUTF8 := by
  simp [pair, Directory.file?, leads.placed, leads'.placed, apart]

theorem loadAccounts_pair (s s' : Text) (ms ms' : Members) (own own' : List (Text × Snapshot))
    (leads : Directory.LeadsTo (Path.ofText name) place)
    (leads' : Directory.LeadsTo (Path.ofText name') place') (apart : place ≠ place')
    (named : FileFormat.ofExtension? (Path.ofText name).extension = some .json)
    (named' : FileFormat.ofExtension? (Path.ofText name').extension = some .json)
    (called : stem name = s) (called' : stem name' = s')
    (read : Json.read Host.usual.json (plainLines text.toList) = .ok (.mapping ms))
    (read' : Json.read Host.usual.json (plainLines text'.toList) = .ok (.mapping ms'))
    (decoded : Snapshot.allOfMembers .usual s ms = .ok own)
    (decoded' : Snapshot.allOfMembers .usual s' ms' = .ok own') :
    loadAccounts .usual (pair name text name' text') [name, name'] =
      .ok (own.map (fun l => (accountLabel s l.1, l.2)) ++
        own'.map fun l => (accountLabel s' l.1, l.2)) := by
  subst called called'
  have opened : (pair name text name' text').members .usual (Path.ofText name) = .ok ms :=
    Directory.members_of_file? leads (file?_pair leads) named read
  have opened' : (pair name text name' text').members .usual (Path.ofText name') = .ok ms' :=
    Directory.members_of_file? leads' (file?_pair' leads leads' apart) named' read'
  have loaded : Snapshot.load .usual (pair name text name' text') (Path.ofText name) = .ok own := by
    rw [Snapshot.load, opened, ok_bind]
    exact decoded
  have loaded' :
      Snapshot.load .usual (pair name text name' text') (Path.ofText name') = .ok own' := by
    rw [Snapshot.load, opened', ok_bind]
    exact decoded'
  simp only [loadAccounts, List.mapM_cons, List.mapM_nil, loaded, loaded', ok_bind]
  exact congrArg (fun rest => Except.ok (_ ++ rest)) (List.append_nil _)

/-- One file goes by its name, and two accounts of the other one are labelled, one with that name. -/
def parted : Directory :=
  pair "a.json" "\x7b\"accounts\":\x7b\"a\":\x7b\x7d,\"b\":\x7b\x7d\x7d\x7d"
    "b.json" "\x7b\"account\":\x7b\x7d\x7d"

def partedAccounts : List (Text × Snapshot) := [("a", {}), ("a:b", {}), ("b", {})]

theorem accountLabels_nodup_parted :
    (List.map stem ["a.json", "b.json"]).Nodup ∧
    loadAccounts .usual parted ["a.json", "b.json"] = .ok partedAccounts ∧
    Host.usual.ReadsApart ∧ (partedAccounts.map (·.1)).Nodup := by
  have stems : (List.map stem ["a.json", "b.json"]).Nodup := by decide +kernel
  have leads : Directory.LeadsTo (Path.ofText "a.json") ⟨false, ["a.json".toUTF8.toList]⟩ :=
    ⟨by decide +kernel, by decide +kernel⟩
  have leads' : Directory.LeadsTo (Path.ofText "b.json") ⟨false, ["b.json".toUTF8.toList]⟩ :=
    ⟨by decide +kernel, by decide +kernel⟩
  have loaded : loadAccounts .usual parted ["a.json", "b.json"] = .ok partedAccounts :=
    loadAccounts_pair "a" "b" [("accounts", .mapping [("a", .record []), ("b", .record [])])]
      [("account", .record [])] [("a", {}), ("b", {})] [("b", {})] leads leads' (by decide +kernel)
      (by decide +kernel) (by decide +kernel) (by decide +kernel) (by decide +kernel)
      (by cbv) (by cbv) (by rfl) (by rfl)
  obtain ⟨_, texts, json, nodup, _⟩ := accountLabels_nodup .usual parted _ _ stems loaded
  have reads := Host.readsApart_usual
  refine ⟨stems, loaded, reads, nodup fun file listed => ⟨?_, ?_⟩⟩
  · have named : FileFormat.ofExtension? (Path.ofText file).extension = some .json := by
      revert file
      decide +kernel
    exact texts reads file listed (json file listed named).1
  · revert file
    decide +kernel

/-- One file goes by its name, which is the label of an account in the other one with the name of that
file in front. -/
def overlapping : Directory :=
  pair "a.json" "\x7b\"accounts\":\x7b\"b\":\x7b\x7d\x7d\x7d"
    "a:b.json" "\x7b\"account\":\x7b\x7d\x7d"

/-- Files of different names may give two accounts one label. -/
theorem not_accountLabels_nodup :
    ¬ ∀ (d : Directory) (files : List Text) (accounts : List (Text × Snapshot)),
      (files.map stem).Nodup → loadAccounts .usual d files = .ok accounts →
      (accounts.map (·.1)).Nodup := by
  intro nodup
  have stems : (List.map stem ["a.json", "a:b.json"]).Nodup := by decide +kernel
  have leads : Directory.LeadsTo (Path.ofText "a.json") ⟨false, ["a.json".toUTF8.toList]⟩ :=
    ⟨by decide +kernel, by decide +kernel⟩
  have leads' : Directory.LeadsTo (Path.ofText "a:b.json") ⟨false, ["a:b.json".toUTF8.toList]⟩ :=
    ⟨by decide +kernel, by decide +kernel⟩
  have loaded : loadAccounts .usual overlapping ["a.json", "a:b.json"] =
      .ok [("a:b", {}), ("a:b", {})] :=
    loadAccounts_pair "a" "a:b" [("accounts", .mapping [("b", .record [])])]
      [("account", .record [])] [("b", {})] [("a:b", {})] leads leads' (by decide +kernel)
      (by decide +kernel) (by decide +kernel) (by decide +kernel) (by decide +kernel)
      (by cbv) (by cbv) (by rfl) (by rfl)
  have distinct := nodup _ _ _ stems loaded
  rw [List.map_cons, List.nodup_cons] at distinct
  exact distinct.1 List.mem_cons_self

end Pairs

end CommandLine
end Solvency
