import Solvency.Proofs.Canonical
import Solvency.Proofs.IdleSlots
import Solvency.Proofs.PriceLookup

/-! What a snapshot from a document represents. Every vector has a slot for each entry of its list, a
position is left out exactly if its entry is null or has a key of zeros, and the price table holds the
listed entries in symbol order. So its keys are valid, and its symbols are unique unless the document
lists one of them twice. -/
namespace Solvency

open Datum

namespace Datum

variable {α : Type} {name : String} {ms : Members}

/-- There is a slot for each entry under the name, and each entry is read, by its place, as its slot. -/
def Slotwise (name : String) (read : String → Document → Except Fault α) (ms : Members)
    (slots : List α) : Prop :=
  ∃ xs, items name (Datum.optional ms name .null) = .ok xs ∧ xs.length = slots.length ∧
    ∀ i (_ : i < xs.length) (_ : i < slots.length), read s!"{name}[{i}]" xs[i] = .ok slots[i]

theorem list_eq_ok_iff {read : String → Document → Except Fault α} {slots : List α} :
    list name read (Datum.optional ms name .null) = .ok slots ↔ Slotwise name read ms slots := by
  simp only [list, bind_eq_ok, mapM_eq_ok_iff_forall₂, List.forall₂_iff_get]
  simp [Slotwise]

end Datum

section Vacancies

/-- The document stands for an empty slot: it is null, or the key in it is spelled with zeros. -/
def Document.Vacant (x : Document) : Prop :=
  x = .null ∨ ∃ (ms : Members) (t : Text), x = .mapping ms ∧ ms.get? "key" = some (.text t) ∧
    SpellsKey t keyLength (List.replicate (2 * keyLength) '0')

theorem eq_zero_of_toLower {c : Char} (lower : c.toLower = '0') : c = '0' := by
  unfold Char.toLower at lower
  split at lower
  · -- Letters are lowered to letters only.
    rename_i upper
    obtain ⟨least, most⟩ := upper
    rw [ge_iff_le, UInt32.le_iff_toNat_le] at least
    rw [UInt32.le_iff_toNat_le] at most
    have shifted : c.val + 32 = 48 := congrArg (·.val) lower
    have code := congrArg UInt32.toNat shifted
    rw [UInt32.toNat_add] at code
    change 65 ≤ c.val.toNat at least
    change c.val.toNat ≤ 90 at most
    change (c.val.toNat + 32) % 2 ^ 32 = 48 at code
    omega
  · exact lower

/-- Only zeros spell the key that marks an empty slot. -/
theorem bytesOfHex_eq_blankKey_iff {t : Text} {digits : List Char}
    (spells : SpellsKey t keyLength digits) :
    bytesOfHex digits = blankKey ↔ digits = List.replicate (2 * keyLength) '0' := by
  constructor
  · intro blank
    have written := byteHex_bytesOfHex spells.hex spells.length
    have zeros : blankKey.flatMap byteHex = List.replicate (2 * keyLength) '0' := by decide
    rw [blank, zeros] at written
    apply List.eq_replicate_iff.mpr
    refine ⟨spells.length, fun c member => ?_⟩
    have lowered : c.toLower ∈ digits.map Char.toLower := List.mem_map_of_mem member
    rw [← written] at lowered
    exact eq_zero_of_toLower (List.eq_of_mem_replicate lowered)
  · rintro rfl
    decide

theorem key_eq_blankKey_iff {name : String} {x : Document} :
    key name (.integer keyLength) x = .ok blankKey ↔
      ∃ t, x = .text t ∧ SpellsKey t keyLength (List.replicate (2 * keyLength) '0') := by
  cases x
  case text t =>
    rw [key_eq_ok_iff (by decide)]
    constructor
    · rintro ⟨digits, spells, blank⟩
      obtain rfl := (bytesOfHex_eq_blankKey_iff spells).mp blank
      exact ⟨t, rfl, spells⟩
    · rintro ⟨_, same, spells⟩
      obtain rfl := Document.text.inj same
      exact ⟨_, spells, (bytesOfHex_eq_blankKey_iff spells).mpr rfl⟩
  all_goals simp [key]

theorem Position.ofMembers?_eq_none_iff {name : String} {ms : Members} :
    ofMembers? name ms = .ok none ↔ ∃ t, ms.get? "key" = some (.text t) ∧
      SpellsKey t keyLength (List.replicate (2 * keyLength) '0') := by
  constructor
  · intro read
    obtain ⟨spelled, found, read⟩ := bind_eq_ok.mp read
    obtain ⟨key, key_read, read⟩ := bind_eq_ok.mp read
    by_cases blank : key = blankKey
    · rw [blank] at key_read
      obtain ⟨t, rfl, spells⟩ := key_eq_blankKey_iff.mp key_read
      exact ⟨t, required_eq_ok.mp found, spells⟩
    · simp only [if_neg blank, bind_eq_ok] at read
      obtain ⟨_, _, _, _, _, _, _, _, _, _, _, _, made⟩ := read
      cases made
  · rintro ⟨t, found, spells⟩
    apply bind_eq_ok.mpr
    refine ⟨_, required_eq_ok.mpr found, bind_eq_ok.mpr ⟨blankKey, ?_, if_pos rfl⟩⟩
    exact key_eq_blankKey_iff.mpr ⟨t, rfl, spells⟩

/-- A position is left out exactly if its entry stands for an empty slot. -/
theorem Position.slot_eq_none_iff {name : String} {x : Document} :
    slot ofMembers? name x = .ok none ↔ x.Vacant := by
  cases x
  case null => simp [slot, Document.Vacant]
  case mapping ms =>
    simp only [slot, members, ok_bind, ofMembers?_eq_none_iff, Document.Vacant]
    simp
  all_goals simp [slot, members, bind_eq_ok, Document.Vacant]

end Vacancies

section Symbols

/-- The document has the price of a symbol, under whatever text names it. -/
def Document.Prices (row : Document) (symbol : Text) : Prop :=
  ∃ (ms : Members) (name : Document), row = .mapping ms ∧ ms.get? "symbol" = some name ∧
    name.plain = symbol

/-- Two of the listed prices are of one symbol. -/
def Members.PricesTwice (ms : Members) : Prop :=
  ∃ rows, items "oracles" (Datum.optional ms "oracles" .null) = .ok rows ∧
    ∃ (i j : Nat) (symbol : Text), i < j ∧ (∃ row : Document, rows[i]? = some row ∧ row.Prices symbol) ∧
      ∃ row : Document, rows[j]? = some row ∧ row.Prices symbol

theorem PriceEntry.prices_iff {name : String} {row : Document} {e : PriceEntry} {symbol : Text}
    (read : ofDocument name row = .ok e) : row.Prices symbol ↔ e.symbol = symbol := by
  simp only [ofDocument, bind_eq_ok, members_eq_ok, required_eq_ok, label_eq_ok_iff] at read
  obtain ⟨ms, rfl, spelled, found, _, ⟨_, rfl⟩, _, _, _, _, made⟩ := read
  cases made
  simp [Document.Prices, found]

/-- The symbols of the entries differ unless one of them is listed twice. -/
theorem Members.pricesTwice_iff {ms : Members} {entries : List PriceEntry}
    (listed : Slotwise "oracles" PriceEntry.ofDocument ms entries) :
    ms.PricesTwice ↔ ¬ (entries.map PriceEntry.symbol).Nodup := by
  obtain ⟨rows, found, length, each⟩ := listed
  -- A row has the price of just the symbol that it is read with.
  have priced (i : Nat) (symbol : Text) : (∃ row : Document, rows[i]? = some row ∧ row.Prices symbol) ↔
      (entries.map PriceEntry.symbol)[i]? = some symbol := by
    by_cases inside : i < rows.length
    · have read := each i inside (length ▸ inside)
      simp [inside, length ▸ inside, PriceEntry.prices_iff read]
    · simp [inside, length ▸ inside]
  simp only [PricesTwice, found, Except.ok.injEq, exists_eq_left', priced,
    List.nodup_iff_getElem?_ne_getElem?]
  constructor
  · rintro ⟨i, j, symbol, before, first, second⟩ differ
    obtain ⟨inside, _⟩ := List.getElem?_eq_some_iff.mp second
    exact differ i j before inside (first.trans second.symm)
  · intro same
    push Not at same
    obtain ⟨i, j, before, inside, equal⟩ := same
    rw [List.getElem?_eq_getElem inside] at equal
    exact ⟨i, j, _, before, equal, List.getElem?_eq_getElem inside⟩

end Symbols

/-- The table holds the entries in symbol order, those of one symbol in the order given. -/
structure PriceTable.Sorts (t : PriceTable) (entries : List PriceEntry) : Prop where
  perm : t.entries.Perm entries
  ordered : t.Ordered
  ties : ∀ symbol, t.entries.filter (fun e => e.symbol = symbol) =
    entries.filter fun e => e.symbol = symbol

theorem PriceTable.sorts_ofEntries (entries : List PriceEntry) : (ofEntries entries).Sorts entries where
  perm := perm_sortOrdered _ entries
  ordered := ordered_ofEntries entries
  ties := filter_ofEntries entries

namespace Snapshot

variable {room : Room} {d given own : Document} {s : Snapshot} {ms : Members}
  {entries : List PriceEntry}

/-- The account is the one given beside the members, or that of the members if none is given. -/
def HoldsAccount (ms : Members) (given own : Document) : Prop :=
  given = .null ∧ ms.get? "account" = some own ∨ given ≠ .null ∧ own = given

theorem holdsAccount_of_accountDocument (chosen : accountDocument room ms given = .ok own) :
    HoldsAccount ms given own := by
  unfold accountDocument at chosen
  split at chosen
  · exact .inl ⟨rfl, required_eq_ok.mp chosen⟩
  · rename_i present
    simp only [bind_eq_ok] at chosen
    obtain ⟨_, _, _, _, made⟩ := chosen
    cases made
    exact .inr ⟨present, rfl⟩

/-- Every vector has a slot for each entry of its list, and each entry is read as its slot. -/
structure SlotwiseFrom (s : Snapshot) (ms own : Members) : Prop where
  balances : Slotwise "collateral" amount own s.account.balances
  positions : Slotwise "positions" (slot Position.ofMembers?) own s.account.positions
  collaterals : Slotwise "collaterals" (slot CollateralTerms.ofMembers?) ms s.collaterals
  markets : Slotwise "perp_markets" (slot MarketTerms.ofMembers?) ms s.markets
  accruals : Slotwise "borrows" Accrual.ofDocument ms s.accruals
  marks : Slotwise "mark_prices" amount ms s.marks
  fundings : Slotwise "funding_indices" integer ms s.fundings
  prices : ∃ entries, Slotwise "oracles" PriceEntry.ofDocument ms entries ∧ s.prices.Sorts entries

theorem ReadFrom.slotwise (read : s.ReadFrom ms own) :
    ∃ members, own = .mapping members ∧ s.SlotwiseFrom ms members := by
  have account_read := read.account
  simp only [Account.ofDocument, bind_eq_ok, members_eq_ok, list_eq_ok_iff] at account_read
  obtain ⟨members, rfl, balances, balances_read, positions, positions_read, made⟩ := account_read
  have balances_eq : s.account.balances = balances := by rw [← Except.ok.inj made]
  have positions_eq : s.account.positions = positions := by rw [← Except.ok.inj made]
  obtain ⟨entries, entries_read, table⟩ := read.prices
  exact ⟨members, rfl, {
    balances := balances_eq ▸ balances_read
    positions := positions_eq ▸ positions_read
    collaterals := list_eq_ok_iff.mp read.collaterals
    markets := list_eq_ok_iff.mp read.markets
    accruals := list_eq_ok_iff.mp read.accruals
    marks := list_eq_ok_iff.mp read.marks
    fundings := list_eq_ok_iff.mp read.fundings
    prices := ⟨entries, list_eq_ok_iff.mp entries_read, table ▸ PriceTable.sorts_ofEntries entries⟩ }⟩

/-- Symbols are reported if and only if one of them has two entries. -/
theorem oracleTableSortedUnique_mem_violations (sorted : s.prices.Sorts entries) :
    .oracleTableSortedUnique ∈ s.violations ↔ ¬ (entries.map PriceEntry.symbol).Nodup := by
  have ordered : s.prices.symbols.Pairwise fun a b => b.before a = false :=
    List.pairwise_map.mpr sorted.ordered
  -- The check compares neighbours only, but in an ordered table equal symbols are neighbours.
  rw [mem_violations, ← Bool.not_eq_true, ← (sorted.perm.map _).nodup_iff]
  exact not_congr (strictlyAscending_iff_pairwise.trans (Text.ascending_iff_nodup ordered))

theorem positionKeysValid_not_mem_violations
    (keys : ∀ p, some p ∈ s.account.positions → p.key.length = keyLength ∧ p.key ≠ blankKey) :
    .positionKeysValid ∉ s.violations := by
  rw [mem_violations, Bool.not_eq_false]
  apply List.all_eq_true.mpr
  intro p filled
  obtain ⟨_, listed, rfl⟩ := List.mem_filterMap.mp filled
  simpa using keys p listed

end Snapshot
end Solvency
