import Solvency.Proofs.CommandRun
import Solvency.Proofs.Representation

/-! Files with many accounts. Each account is loaded as if it stood alone beside the protocol data that
all of them share: it is screened apart from these data, but both pass exactly if the document that
holds them together does, as far as there is room for them. Only the label of an account may be in the
way, if it has an integer without a numeral. -/
namespace Solvency

open Datum

namespace Members

variable {ms ms' shared : Members} {key : String} {d : Document}

/-- No key comes twice. -/
def Distinct (ms : Members) : Prop := (ms.map (·.1)).Nodup

/-- The members are protocol data: their keys are those of shared fields, none of them twice. -/
structure Protocol (ms : Members) : Prop where
  fields : ∀ m ∈ ms, ∃ key ∈ sharedFields, m.1 = .text (Text.ofString key)
  distinct : ms.Distinct

/-- The members are the shared ones and one more, in whatever order. -/
def Adds (shared : Members) (key : String) (d : Document) (ms : Members) : Prop :=
  ms.Perm ((.text (Text.ofString key), d) :: shared)

theorem get?_eq_some_iff (distinct : ms.Distinct) :
    ms.get? key = some d ↔ (.text (Text.ofString key), d) ∈ ms := by
  constructor
  · exact mem_of_get?
  · intro member
    cases found : ms.get? key with
    | none =>
      rw [get?, Option.map_eq_none_iff, List.find?_eq_none] at found
      simpa using found _ member
    | some v =>
      have same := List.inj_on_of_nodup_map distinct (mem_of_get? found) member rfl
      rw [(Prod.mk.inj same).2]

/-- The order of members does not matter to a look-up. -/
theorem get?_of_perm (perm : ms.Perm ms') (distinct : ms.Distinct) : ms.get? key = ms'.get? key := by
  have distinct' : ms'.Distinct := (perm.map _).nodup_iff.mp distinct
  apply Option.ext
  intro d
  rw [get?_eq_some_iff distinct, get?_eq_some_iff distinct', perm.mem_iff]

section Adds

variable (protocol : shared.Protocol) (other : key ∉ sharedFields) (added : shared.Adds key d ms)

include protocol other added

theorem Adds.distinct : ms.Distinct := by
  apply (added.map _).nodup_iff.mpr
  refine List.nodup_cons.mpr ⟨fun listed => ?_, protocol.distinct⟩
  obtain ⟨m, member, same⟩ := List.mem_map.mp listed
  obtain ⟨field, shares, named⟩ := protocol.fields m member
  rw [named, Document.text.injEq, Text.ofString_inj] at same
  exact other (same ▸ shares)

theorem Adds.get?_self : ms.get? key = some d :=
  (get?_eq_some_iff (added.distinct protocol other)).mpr (added.mem_iff.mpr List.mem_cons_self)

theorem Adds.get?_shared {field : String} (shares : field ∈ sharedFields) :
    ms.get? field = shared.get? field := by
  have apart : key ≠ field := fun same => other (same ▸ shares)
  rw [get?_of_perm added (added.distinct protocol other), ← List.singleton_append, get?_append,
    get?_text, if_neg (mt Text.ofString_inj.mp apart), Option.none_or]

end Adds

theorem exists_adds (shared : Members) (key : String) (d : Document) :
    ∃ ms : Members, shared.Adds key d ms :=
  ⟨(.text (Text.ofString key), d) :: shared, .refl _⟩

theorem Adds.admissible_iff (added : shared.Adds key d ms) :
    (Document.mapping ms).admissible = true ↔
      d.admissible = true ∧ (Document.mapping shared).admissible = true := by
  have half : (Text.ofString key).hasHalf = false := Text.hasHalf_ofChars _
  simp only [Document.admissible, Document.membersAdmissible_iff, added.mem_iff, List.forall_mem_cons]
  simp [half]

theorem Adds.nesting (added : shared.Adds key d ms) : (Document.mapping ms).nesting 1 =
    max (d.nesting 1 + 1) ((Document.mapping shared).nesting 1) := by
  have members :
      Document.memberNesting 1 ms = max (d.nesting 1) (Document.memberNesting 1 shared) := by
    apply eq_of_forall_ge_iff
    intro n
    simp only [Document.memberNesting_le, added.mem_iff, List.forall_mem_cons, Document.nesting_text,
      Nat.max_le]
    constructor
    · rintro ⟨⟨_, own⟩, rest⟩
      exact ⟨own, rest⟩
    · rintro ⟨own, rest⟩
      exact ⟨⟨Nat.le_trans d.one_le_nesting own, own⟩, rest⟩
  rw [Document.nesting_mapping, Document.nesting_mapping, members, Nat.add_max_add_right]

section Shared

theorem mem_shared {m : Document × Document} : m ∈ ms.shared ↔
    ∃ key ∈ sharedFields, m.1 = .text (Text.ofString key) ∧ ms.get? key = some m.2 := by
  simp only [shared, List.mem_filterMap, Option.map_eq_some_iff]
  constructor
  · rintro ⟨key, shares, d, found, rfl⟩
    exact ⟨key, shares, rfl, found⟩
  · rintro ⟨key, shares, named, found⟩
    exact ⟨key, shares, m.2, found, Prod.ext named.symm rfl⟩

theorem distinct_shared (ms : Members) : ms.shared.Distinct := by
  rw [Distinct, shared, List.map_filterMap]
  apply List.Nodup.filterMap
  · intro a b k first second
    simp only [Option.mem_def, Option.map_map, Option.map_eq_some_iff, Function.comp_apply]
      at first second
    obtain ⟨_, _, rfl⟩ := first
    obtain ⟨_, _, same⟩ := second
    exact Text.ofString_inj.mp (Document.text.inj same.symm)
  · decide

/-- What the accounts of a file share is its protocol data. -/
theorem mem_shared_iff (protocol : shared.Protocol)
    (same : ∀ field ∈ sharedFields, ms.get? field = shared.get? field) {m : Document × Document} :
    m ∈ ms.shared ↔ m ∈ shared := by
  rw [mem_shared]
  constructor
  · rintro ⟨key, shares, named, found⟩
    rw [same key shares, get?_eq_some_iff protocol.distinct, ← named] at found
    exact found
  · intro member
    obtain ⟨key, shares, named⟩ := protocol.fields m member
    refine ⟨key, shares, named, ?_⟩
    rw [same key shares, get?_eq_some_iff protocol.distinct, ← named]
    exact member

theorem get?_shared {field : String} (shares : field ∈ sharedFields) :
    ms.shared.get? field = ms.get? field := by
  apply Option.ext
  intro d
  rw [get?_eq_some_iff ms.distinct_shared, mem_shared]
  constructor
  · rintro ⟨key, _, named, found⟩
    rwa [Text.ofString_inj.mp (Document.text.inj named)]
  · intro found
    exact ⟨field, shares, rfl, found⟩

theorem admissible_shared_iff (protocol : shared.Protocol)
    (same : ∀ field ∈ sharedFields, ms.get? field = shared.get? field) :
    (Document.mapping ms.shared).admissible = true ↔ (Document.mapping shared).admissible = true := by
  simp only [Document.admissible, Document.membersAdmissible_iff, mem_shared_iff protocol same]

theorem nesting_shared (protocol : shared.Protocol)
    (same : ∀ field ∈ sharedFields, ms.get? field = shared.get? field) :
    (Document.mapping ms.shared).nesting 1 = (Document.mapping shared).nesting 1 := by
  rw [Document.nesting_mapping, Document.nesting_mapping]
  congr 1
  apply eq_of_forall_ge_iff
  intro n
  simp only [Document.memberNesting_le, mem_shared_iff protocol same]

theorem get?_account_shared (ms : Members) : ms.shared.get? "account" = none := by
  cases found : ms.shared.get? "account" with
  | none => rfl
  | some d =>
    obtain ⟨key, shares, named, _⟩ := mem_shared.mp (mem_of_get? found)
    obtain rfl := Text.ofString_inj.mp (Document.text.inj named)
    exact absurd shares (by decide)

end Shared

end Members

namespace Snapshot

variable {ms ms' shared accounts : Members} {own : Document} {s : Snapshot}

/-- A snapshot is read from nothing but the shared fields of screened members. -/
theorem ReadFrom.congr (read : s.ReadFrom ms own)
    (same : ∀ field ∈ sharedFields, ms.get? field = ms'.get? field)
    (screened : (Document.mapping ms').admissible = true) : s.ReadFrom ms' own := by
  have optional (field : String) (fallback : Document) (shares : field ∈ sharedFields) :
      Datum.optional ms field fallback = Datum.optional ms' field fallback := by
    rw [Datum.optional, Datum.optional, same field shares]
  exact {
    screened := screened
    account := read.account
    collaterals := optional "collaterals" .null (by decide) ▸ read.collaterals
    markets := optional "perp_markets" .null (by decide) ▸ read.markets
    accruals := optional "borrows" .null (by decide) ▸ read.accruals
    prices := optional "oracles" .null (by decide) ▸ read.prices
    marks := optional "mark_prices" .null (by decide) ▸ read.marks
    fundings := optional "funding_indices" .null (by decide) ▸ read.fundings
    collateralCount := optional "total_collaterals" _ (by decide) ▸ read.collateralCount
    marketCount := optional "total_markets" _ (by decide) ▸ read.marketCount }

/-- With an account of their own, members are screened together with it. -/
theorem ofMembers_own_iff {room : Room} (found : ms.get? "account" = some own) :
    ofMembers room ms .null = .ok s ↔
      (Document.mapping ms).nesting 1 ≤ room.calls ∧ s.ReadFrom ms own := by
  simp [ofMembers_eq_ok, accountDocument, required_eq_ok, found]

/-- An account given beside members that have none is screened apart from them. -/
theorem ofMembers_given_iff {room : Room} (absent : ms.get? "account" = none) :
    ofMembers room ms own = .ok s ↔
      ((Document.mapping ms).nesting 1 ≤ room.calls ∧ own.nesting 1 ≤ room.calls) ∧
        own.admissible = true ∧ s.ReadFrom ms own := by
  have chosen (members : Members) :
      accountDocument room ms (.mapping members) = .ok (.mapping members) ↔
        (Document.mapping members).admissible = true ∧
          (Document.mapping members).nesting 1 ≤ room.calls := by
    simp only [accountDocument, Document.toMembers, ok_bind, seq_eq_ok, Document.screen_eq_ok]
    exact and_iff_left rfl
  rw [ofMembers_eq_ok]
  constructor
  · rintro ⟨shallow, own', given, read⟩
    -- Null would stand for an account of the members, which have none.
    rcases holdsAccount_of_accountDocument given with ⟨_, found⟩ | ⟨_, rfl⟩
    · rw [absent] at found
      contradiction
    · obtain ⟨members, rfl, _⟩ := read.slotwise
      obtain ⟨screened, shallow'⟩ := (chosen members).mp given
      exact ⟨⟨shallow, shallow'⟩, screened, read⟩
  · rintro ⟨⟨shallow, shallow'⟩, screened, read⟩
    obtain ⟨members, rfl, _⟩ := read.slotwise
    exact ⟨shallow, _, (chosen members).mpr ⟨screened, shallow'⟩, read⟩

/-- The snapshot is that of the shared members and the account in one document, in whatever order, if
there is room for the document. -/
def OfAccount (s : Snapshot) (shared : Members) (own : Document) : Prop :=
  ∀ ms room, shared.Adds "account" own ms → (Document.mapping ms).nesting 1 ≤ room.calls →
    ofDocument room (.mapping ms) .null = .ok s

theorem OfAccount.unique {t : Snapshot} (first : s.OfAccount shared own)
    (second : t.OfAccount shared own) : s = t := by
  obtain ⟨ms, single⟩ := shared.exists_adds "account" own
  obtain ⟨room, shallow⟩ := exists_room ((Document.mapping ms).nesting 1)
  exact Except.ok.inj ((first _ room single shallow).symm.trans (second _ room single shallow))

/-- There is room to screen an account of a file, and what it shares with the others. -/
def FitsBeside (host : Host) (shared : Members) (own : Document) : Prop :=
  (Document.mapping shared).nesting 1 ≤ host.shared.calls ∧ own.nesting 1 ≤ host.shared.calls

section OfAccount

variable (protocol : shared.Protocol)
include protocol

theorem ofDocument_single_iff {room : Room} (single : shared.Adds "account" own ms) :
    ofDocument room (.mapping ms) .null = .ok s ↔
      (Document.mapping ms).nesting 1 ≤ room.calls ∧ s.ReadFrom ms own :=
  ofMembers_own_iff (single.get?_self protocol (by decide))

/-- The order of the members does not matter. -/
theorem ofAccount_iff_readFrom (single : shared.Adds "account" own ms) :
    s.OfAccount shared own ↔ s.ReadFrom ms own := by
  constructor
  · intro alone
    obtain ⟨room, shallow⟩ := exists_room ((Document.mapping ms).nesting 1)
    exact ((ofDocument_single_iff protocol single).mp (alone ms room single shallow)).2
  · intro read ms' room single' shallow
    refine (ofDocument_single_iff protocol single').mpr ⟨shallow, ?_⟩
    refine read.congr (fun field shares => ?_) ?_
    · rw [single.get?_shared protocol (by decide) shares,
        single'.get?_shared protocol (by decide) shares]
    · rw [single'.admissible_iff, ← single.admissible_iff]
      exact read.screened

theorem ofDocument_iff {room : Room} (single : shared.Adds "account" own ms) :
    ofDocument room (.mapping ms) .null = .ok s ↔
      s.OfAccount shared own ∧ (Document.mapping ms).nesting 1 ≤ room.calls := by
  rw [ofDocument_single_iff protocol single, ofAccount_iff_readFrom protocol single, and_comm]

/-- Beside what accounts share, an account gives the snapshot that it gives in one document with it. -/
theorem ofMembers_shared_iff {host : Host} {accounts : Document}
    (added : shared.Adds "accounts" accounts ms) : ofMembers host.shared ms.shared own = .ok s ↔
      FitsBeside host shared own ∧ s.OfAccount shared own := by
  have common (field : String) (shares : field ∈ sharedFields) : ms.get? field = shared.get? field :=
    added.get?_shared protocol (by decide) shares
  obtain ⟨both, single⟩ := shared.exists_adds "account" own
  have agree (field : String) (shares : field ∈ sharedFields) :
      ms.shared.get? field = both.get? field := by
    rw [Members.get?_shared shares, common field shares,
      single.get?_shared protocol (by decide) shares]
  rw [ofMembers_given_iff ms.get?_account_shared, ofAccount_iff_readFrom protocol single, FitsBeside,
    Members.nesting_shared protocol common]
  -- Both ways the same fields are read, so what is left is that both screens pass.
  refine and_congr_right fun _ => ⟨fun ⟨screened, read⟩ => ?_, fun read => ?_⟩
  · apply read.congr agree
    rw [single.admissible_iff, ← Members.admissible_shared_iff protocol common]
    exact ⟨screened, read.screened⟩
  · have screened := read.screened
    rw [single.admissible_iff, ← Members.admissible_shared_iff protocol common] at screened
    exact ⟨screened.1, read.congr (fun field shares => (agree field shares).symm) screened.2⟩

end OfAccount

end Snapshot

/-- A file of the directory holds the accounts by their labels beside the shared members. -/
structure Directory.HoldsAccounts (host : Host) (d : Directory) (p : Path)
    (shared accounts : Members) : Prop where
  protocol : shared.Protocol
  file : ∃ ms, d.members host p = .ok ms ∧ shared.Adds "accounts" (.mapping accounts) ms

namespace Snapshot

variable {host : Host} {d : Directory} {p : Path} {ms shared accounts : Members}
  {account : Document × Document} {l : Text × Snapshot}

/-- One of the accounts in the members, with the text of its label. -/
def labelled (host : Host) (ms : Members) (account : Document × Document) :
    Except Fault (Text × Snapshot) := do
  let label ← Datum.label account.1
  let s ← ofMembers host.shared ms.shared account.2
  pure (label, s)

/-- The account can be loaded as one of many: its label has a text, and there is room for it. -/
structure Loadable (host : Host) (shared : Members) (account : Document × Document) : Prop where
  label : ∀ n ∈ account.1.integers, Writable n
  fits : FitsBeside host shared account.2

theorem labelled_eq_ok_iff (protocol : shared.Protocol) {document : Document}
    (added : shared.Adds "accounts" document ms) :
    labelled host ms account = .ok l ↔ Loadable host shared account ∧
      l.1 = account.1.plain ∧ l.2.OfAccount shared account.2 := by
  simp only [labelled, bind_eq_ok, ofMembers_shared_iff protocol added]
  constructor
  · rintro ⟨_, named, _, ⟨fits, alone⟩, made⟩
    cases made
    obtain ⟨label, text⟩ := Datum.label_eq_ok_iff.mp named
    exact ⟨⟨label, fits⟩, text, alone⟩
  · rintro ⟨⟨label, fits⟩, text, alone⟩
    exact ⟨_, Datum.label_eq_ok_iff.mpr ⟨label, text⟩, _, ⟨fits, alone⟩, rfl⟩

/-- Accounts are loaded one by one. -/
theorem allOfMembers_eq_mapM (protocol : shared.Protocol)
    (added : shared.Adds "accounts" (.mapping accounts) ms) (stem : Text) :
    allOfMembers host stem ms = accounts.mapM (labelled host ms) := by
  have found : Datum.optional ms "accounts" .null = .mapping accounts := by
    rw [Datum.optional, added.get?_self protocol (by decide), Option.getD_some]
  rw [allOfMembers, found]
  rfl

theorem load_eq_mapM (protocol : shared.Protocol) (read : d.members host p = .ok ms)
    (added : shared.Adds "accounts" (.mapping accounts) ms) :
    load host d p = accounts.mapM (labelled host ms) := by
  rw [load, read, ok_bind, allOfMembers_eq_mapM protocol added]

/-- An account is loaded into its own place. -/
theorem loaded_of_load (holds : d.HoldsAccounts host p shared accounts)
    {loaded : List (Text × Snapshot)} (done : load host d p = .ok loaded) {i : Nat}
    (entry : accounts[i]? = some account) :
    ∃ s : Snapshot, loaded[i]? = some (account.1.plain, s) ∧ s.OfAccount shared account.2 := by
  obtain ⟨ms, read, added⟩ := holds.file
  rw [load_eq_mapM holds.protocol read added] at done
  have results := congrArg (·[i]?) (mapM_eq_ok.mp done)
  simp only [List.getElem?_map, entry, Option.map_some] at results
  obtain ⟨⟨label, s⟩, slot, made⟩ := Option.map_eq_some_iff.mp results.symm
  obtain ⟨_, rfl, alone⟩ := (labelled_eq_ok_iff holds.protocol added).mp made.symm
  exact ⟨s, slot, alone⟩

/-- A file of many accounts is loaded exactly if every account makes up an accepted document with the
members that they share, every label has a text, and there is room for them. What is loaded is then,
in the order of the file, the text of each label with the snapshot of that document, whatever other
accounts there are. For want of room is all that a document is not accepted for where others with the
same account and the same shared members are, and it is as deep as the deeper of its two parts, an
account being a level further in. -/
theorem load_accounts (holds : d.HoldsAccounts host p shared accounts) :
    (∀ loaded, load host d p = .ok loaded ↔ (∀ account ∈ accounts, Loadable host shared account) ∧
      List.Forall₂ (fun account l => l.1 = account.1.plain ∧ l.2.OfAccount shared account.2)
        accounts loaded) ∧
    ((∃ loaded, load host d p = .ok loaded) ↔ ∀ account ∈ accounts,
      Loadable host shared account ∧ ∃ s : Snapshot, s.OfAccount shared account.2) ∧
    (∀ own ms, shared.Adds "account" own ms → (Document.mapping ms).nesting 1 =
        max (own.nesting 1 + 1) ((Document.mapping shared).nesting 1) ∧
      ∀ room s, ofDocument room (.mapping ms) .null = .ok s ↔
        s.OfAccount shared own ∧ (Document.mapping ms).nesting 1 ≤ room.calls) ∧
    (∀ host' d' p' accounts', Directory.HoldsAccounts host' d' p' shared accounts' →
      ∀ loaded loaded', load host d p = .ok loaded → load host' d' p' = .ok loaded' →
        ∀ (i j : Nat) account, accounts[i]? = some account → accounts'[j]? = some account →
          loaded[i]? = loaded'[j]?) := by
  obtain ⟨ms, read, added⟩ := holds.file
  refine ⟨fun loaded => ?_, ?_,
    fun _ _ single => ⟨single.nesting, fun _ _ => ofDocument_iff holds.protocol single⟩, ?_⟩
  · rw [load_eq_mapM holds.protocol read added, mapM_eq_ok_iff_forall₂, ← List.forall₂_and_left]
    simp only [labelled_eq_ok_iff holds.protocol added]
  · rw [load_eq_mapM holds.protocol read added, mapM_returns_iff]
    apply forall₂_congr
    intro account _
    simp [labelled_eq_ok_iff holds.protocol added]
  · intro host' d' p' accounts' holds' loaded loaded' done done' i j account entry entry'
    obtain ⟨s, slot, alone⟩ := loaded_of_load holds done entry
    obtain ⟨t, slot', alone'⟩ := loaded_of_load holds' done' entry'
    rw [slot, slot', alone.unique alone']

/-- Two accounts that share a count, one of them with a balance. -/
def sharing : Directory := .single "a.json"
  "\x7b\"accounts\":\x7b\"x\":\x7b\x7d,\"y\":\x7b\"collateral\":[1]\x7d\x7d,\"total_markets\":1\x7d"

theorem load_accounts_sharing :
    sharing.HoldsAccounts .usual (Path.ofText "a.json") [("total_markets", .integer 1)]
      [("x", .record []), ("y", .record [("collateral", .list [.integer 1])])] ∧
    load .usual sharing (Path.ofText "a.json") = .ok [
      ("x", { marketCount := 1 }),
      ("y", { account := { balances := [1000000000000] }, marketCount := 1 })] := by
  have format : FileFormat.ofExtension? (Path.ofText "a.json").extension = some .json := by
    decide +kernel
  have leads : Directory.LeadsTo (Path.ofText "a.json") ⟨false, ["a.json".toUTF8.toList]⟩ :=
    ⟨by decide +kernel, by decide +kernel⟩
  have holds : sharing.HoldsAccounts .usual (Path.ofText "a.json") [("total_markets", .integer 1)]
      [("x", .record []), ("y", .record [("collateral", .list [.integer 1])])] := {
    protocol := ⟨by simp [sharedFields], List.nodup_singleton _⟩
    file := ⟨_, Directory.members_of_file? leads (Directory.file?_single leads) format (by cbv),
      .refl _⟩ }
  have alone {own : Document} {s : Snapshot} (read : ofDocument Host.usual.alone
      (.mapping [("account", own), ("total_markets", .integer 1)]) .null = .ok s) :
      s.OfAccount [("total_markets", .integer 1)] own :=
    ((ofDocument_iff holds.protocol (.refl _)).mp read).1
  refine ⟨holds, ((load_accounts holds).1 _).mpr ⟨?_, ?_⟩⟩
  · simp only [List.forall_mem_cons, List.not_mem_nil, false_implies, implies_true, and_true]
    exact ⟨⟨by decide, by decide, by decide⟩, by decide, by decide, by decide⟩
  · exact .cons ⟨rfl, alone rfl⟩ (.cons ⟨rfl, alone rfl⟩ .nil)

/-- An account whose label is an integer without a numeral makes up an accepted document, but keeps the
accounts that it stands among from being loaded. -/
theorem not_load_accounts :
    ¬ ∀ (stem : Text) (shared accounts ms : Members), shared.Protocol →
      shared.Adds "accounts" (.mapping accounts) ms →
      (∀ account ∈ accounts, FitsBeside .usual shared account.2 ∧
        ∃ s : Snapshot, s.OfAccount shared account.2) →
      ∃ loaded, allOfMembers .usual stem ms = .ok loaded := by
  intro loads
  let accounts : Members := [(.integer (tenTo digitLimit), .record [])]
  have protocol : Members.Protocol [] := ⟨by simp, List.nodup_nil⟩
  have added : Members.Adds [] "accounts" (.mapping accounts) [("accounts", .mapping accounts)] :=
    List.Perm.refl _
  have read : ofDocument Host.usual.alone (.mapping [("account", .record [])]) .null = .ok {} := rfl
  have accepted : OfAccount {} [] (.record []) := ((ofDocument_iff protocol (.refl _)).mp read).1
  have each : ∀ account ∈ accounts, FitsBeside .usual [] account.2 ∧
      ∃ s : Snapshot, s.OfAccount [] account.2 :=
    List.forall_mem_singleton.mpr ⟨⟨by decide, by decide⟩, {}, accepted⟩
  obtain ⟨loaded, done⟩ := loads "a" _ _ _ protocol added each
  rw [allOfMembers_eq_mapM protocol added] at done
  obtain ⟨l, _, made⟩ := exists_mem_of_mapM done List.mem_cons_self
  have writable := ((labelled_eq_ok_iff protocol added).mp made).1.label _ List.mem_cons_self
  rw [Writable, Int.natAbs_natCast] at writable
  exact absurd writable (lt_irrefl _)

end Snapshot
end Solvency
