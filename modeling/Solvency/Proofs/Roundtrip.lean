import Mathlib.Data.List.ReduceOption
import Solvency.Proofs.ExactReading
import Solvency.Proofs.KeyText
import Solvency.Proofs.PriceOrder
import Solvency.Proofs.Screening
import Solvency.Proofs.Writing
import Solvency.Snapshot.Decode

/-! Snapshots as documents and back. Whatever is written is read again, with every fixed-point field
rounded to the precision of decimal texts; so a snapshot whose fields fit the precision comes back
as it was. -/
namespace Solvency

open Datum

def Accrual.mapAmounts (f : Int → Int) (a : Accrual) : Accrual where
  supply := f a.supply
  borrow := f a.borrow

def PriceEntry.mapAmount (f : Int → Int) (e : PriceEntry) : PriceEntry where
  symbol := e.symbol
  price := f e.price

def Account.mapAmounts (f : Int → Int) (a : Account) : Account where
  balances := a.balances.map f
  positions := a.positions

namespace Snapshot

def mapAmounts (f : Int → Int) (s : Snapshot) : Snapshot :=
  { s with
    account := s.account.mapAmounts f
    accruals := s.accruals.map (Accrual.mapAmounts f)
    prices := ⟨s.prices.entries.map (PriceEntry.mapAmount f)⟩
    marks := s.marks.map f }

def texts (s : Snapshot) : List Text :=
  s.collaterals.reduceOption.flatMap (fun c => [c.mint, c.feed]) ++
    s.markets.reduceOption.map MarketTerms.symbol ++ s.prices.symbols

/-- What a snapshot must have for its document to give it again: keys of full length that mark no
empty slot, prices in symbol order, and texts without lone surrogates. -/
structure Regular (s : Snapshot) : Prop where
  keys : ∀ p ∈ s.account.positions.reduceOption, p.key.length = keyLength ∧ p.key ≠ blankKey
  ordered : s.prices.Ordered
  texts : ∀ t ∈ s.texts, t.hasHalf = false

theorem forall_mem_texts {s : Snapshot} {P : Text → Prop} : (∀ t ∈ s.texts, P t) ↔
    (∀ c, some c ∈ s.collaterals → P c.mint ∧ P c.feed) ∧
    (∀ m, some m ∈ s.markets → P m.symbol) ∧ ∀ e ∈ s.prices.entries, P e.symbol := by
  simp only [texts, PriceTable.symbols, List.forall_mem_append, List.forall_mem_flatMap,
    List.forall_mem_cons, List.not_mem_nil, false_implies, implies_true, and_true,
    List.forall_mem_map, List.reduceOption_mem_iff, and_assoc]

end Snapshot

section Unchanged

variable {f : Int → Int}

theorem map_eq_self_iff {α : Type} {f : α → α} {xs : List α} :
    xs.map f = xs ↔ ∀ x ∈ xs, f x = x := by
  simpa only [List.map_id, id] using List.map_inj_left (l := xs) (f := f) (g := id)

theorem Accrual.mapAmounts_eq_self_iff {a : Accrual} :
    a.mapAmounts f = a ↔ ∀ n ∈ a.amounts, f n = n := by
  obtain ⟨supply, borrow⟩ := a
  simp [mapAmounts, amounts]

theorem PriceEntry.mapAmount_eq_self_iff {e : PriceEntry} :
    e.mapAmount f = e ↔ f e.price = e.price := by
  obtain ⟨symbol, price⟩ := e
  simp [mapAmount]

theorem Snapshot.mapAmounts_eq_self_iff {s : Snapshot} :
    s.mapAmounts f = s ↔ ∀ n ∈ s.amounts, f n = n := by
  obtain ⟨⟨balances, positions⟩, collaterals, markets, accruals, ⟨entries⟩, marks⟩ := s
  simp only [mapAmounts, Account.mapAmounts, amounts, mk.injEq, Account.mk.injEq,
    PriceTable.mk.injEq, map_eq_self_iff, Accrual.mapAmounts_eq_self_iff,
    PriceEntry.mapAmount_eq_self_iff, List.forall_mem_append, List.forall_mem_flatMap,
    List.forall_mem_map, and_true, true_and, and_assoc]

theorem Snapshot.amounts_mapAmounts (f : Int → Int) (s : Snapshot) :
    (s.mapAmounts f).amounts = s.amounts.map f := by
  simp [amounts, mapAmounts, Account.mapAmounts, Accrual.mapAmounts, Accrual.amounts,
    PriceEntry.mapAmount, List.flatMap_map, List.map_flatMap, Function.comp_def]

theorem PriceTable.Ordered.mapAmount {t : PriceTable} (ordered : t.Ordered) (f : Int → Int) :
    Ordered ⟨t.entries.map (PriceEntry.mapAmount f)⟩ :=
  List.pairwise_map.mpr ordered

end Unchanged

section Amounts

variable {raw : Int} {d : Document}

theorem reads_amountDocument (written : amountDocument raw = .ok d) :
    Reads amount d (nearest raw) := by
  obtain ⟨t, spelled, rfl⟩ := map_eq_ok.mp written
  exact amount_amountText spelled

theorem admissible_amountDocument (written : amountDocument raw = .ok d) : d.admissible = true := by
  obtain ⟨_, rfl⟩ := amountDocument_eq_ok.mp written
  rw [Document.admissible_text, Text.hasHalf_ofChars]
  rfl

end Amounts

section Parts

variable {d : Document}

theorem reads_accrual {a : Accrual} (written : a.toDocument = .ok d) :
    Reads Accrual.ofDocument d (a.mapAmounts nearest) := by
  intro name
  obtain ⟨supply, first, written⟩ := bind_eq_ok.mp written
  obtain ⟨borrow, second, made⟩ := bind_eq_ok.mp written
  cases made
  simp [Accrual.ofDocument, Document.record, members, Datum.optional, List.lookup_cons,
    reads_amountDocument first _, reads_amountDocument second _, Accrual.mapAmounts]

theorem admissible_accrual {a : Accrual} (written : a.toDocument = .ok d) :
    d.admissible = true := by
  obtain ⟨supply, first, written⟩ := bind_eq_ok.mp written
  obtain ⟨borrow, second, made⟩ := bind_eq_ok.mp written
  cases made
  simp [admissible_amountDocument first, admissible_amountDocument second]

theorem reads_price {e : PriceEntry} (written : e.toDocument = .ok d) :
    Reads PriceEntry.ofDocument d (e.mapAmount nearest) := by
  intro name
  obtain ⟨price, spelled, made⟩ := bind_eq_ok.mp written
  cases made
  simp [PriceEntry.ofDocument, Document.record, members, required, List.lookup_cons,
    reads_amountDocument spelled _, PriceEntry.mapAmount]

theorem admissible_price {e : PriceEntry} (characters : e.symbol.hasHalf = false)
    (written : e.toDocument = .ok d) : d.admissible = true := by
  obtain ⟨price, spelled, made⟩ := bind_eq_ok.mp written
  cases made
  simp [admissible_amountDocument spelled, characters]

theorem reads_position {p : Position} (length : p.key.length = keyLength) (full : p.key ≠ blankKey) :
    Reads (slot Position.ofMembers?) p.toDocument (some p) := by
  intro name
  simp [slot, Position.toDocument, Position.ofMembers?, Document.record, members, required,
    Datum.optional, List.lookup_cons, key_keyText (by decide) length, full, integer]

theorem reads_collateral (c : CollateralTerms) :
    Reads (slot CollateralTerms.ofMembers?) c.toDocument (some c) := by
  intro name
  simp [slot, CollateralTerms.toDocument, CollateralTerms.ofMembers?, Document.record, members,
    required, Datum.optional, List.lookup_cons, integer]

theorem admissible_collateral {c : CollateralTerms}
    (characters : c.mint.hasHalf = false ∧ c.feed.hasHalf = false) :
    c.toDocument.admissible = true := by
  simp [CollateralTerms.toDocument, characters]

theorem reads_market (m : MarketTerms) :
    Reads (slot MarketTerms.ofMembers?) m.toDocument (some m) := by
  intro name
  simp [slot, MarketTerms.toDocument, MarketTerms.ofMembers?, Document.record, members,
    required, List.lookup_cons, integer]

theorem admissible_market {m : MarketTerms} (characters : m.symbol.hasHalf = false) :
    m.toDocument.admissible = true := by
  simp [MarketTerms.toDocument, characters]

/-- An empty slot is written as null and read as empty. -/
theorem reads_slot {α : Type} {read : String → Members → Except Fault (Option α)}
    {write : α → Document} {entry : Option α}
    (back : ∀ a, entry = some a → Reads (slot read) (write a) (some a)) :
    Reads (slot read) (slotDocument write entry) entry := by
  cases entry with
  | none => exact fun _ => rfl
  | some a => exact back a rfl

theorem admissible_slot {α : Type} {write : α → Document} {entry : Option α}
    (screened : ∀ a, entry = some a → (write a).admissible = true) :
    (slotDocument write entry).admissible = true := by
  cases entry with
  | none => rfl
  | some a => exact screened a rfl

theorem reads_account {a : Account} (written : a.toDocument = .ok d)
    (keys : ∀ p ∈ a.positions.reduceOption, p.key.length = keyLength ∧ p.key ≠ blankKey) :
    Account.ofDocument d = .ok (a.mapAmounts nearest) := by
  obtain ⟨balances, spelled, made⟩ := bind_eq_ok.mp written
  cases made
  have balances_read (name : String) :
      list name amount (.list balances) = .ok (a.balances.map nearest) :=
    list_mapM spelled fun _ _ => reads_amountDocument
  have positions_read (name : String) : list name (slot Position.ofMembers?)
      (.list (a.positions.map (slotDocument Position.toDocument))) = .ok a.positions := by
    refine list_map fun entry listed => reads_slot fun p filled => ?_
    obtain ⟨length, full⟩ := keys p (List.reduceOption_mem_iff.mpr (filled ▸ listed))
    exact reads_position length full
  simp [Account.ofDocument, Document.record, members, Datum.optional, List.lookup_cons, balances_read,
    positions_read, Account.mapAmounts]

theorem admissible_account {a : Account} (written : a.toDocument = .ok d) : d.admissible = true := by
  obtain ⟨balances, spelled, made⟩ := bind_eq_ok.mp written
  cases made
  have balances_pass : ∀ x ∈ balances, x.admissible = true :=
    forall_of_mapM (fun _ _ _ => admissible_amountDocument) spelled
  have positions_pass : ∀ entry ∈ a.positions,
      (slotDocument Position.toDocument entry).admissible = true := by
    refine fun entry _ => admissible_slot fun p _ => ?_
    simp [Position.toDocument, keyText]
  simpa using ⟨balances_pass, positions_pass⟩

end Parts

/-! How deep the documents of the parts are. -/
section Depth

open Document (nesting_record_le nesting_list_le)

variable {d : Document}

theorem nesting_amountDocument {raw : Int} (written : amountDocument raw = .ok d) :
    d.nesting 1 ≤ 1 := by
  obtain ⟨_, rfl⟩ := amountDocument_eq_ok.mp written
  exact le_rfl

theorem nesting_accrual {a : Accrual} (written : a.toDocument = .ok d) : d.nesting 1 ≤ 2 := by
  obtain ⟨supply, first, written⟩ := bind_eq_ok.mp written
  obtain ⟨borrow, second, made⟩ := bind_eq_ok.mp written
  cases made
  refine nesting_record_le le_rfl ?_
  simp [nesting_amountDocument first, nesting_amountDocument second]

theorem nesting_price {e : PriceEntry} (written : e.toDocument = .ok d) : d.nesting 1 ≤ 2 := by
  obtain ⟨price, spelled, made⟩ := bind_eq_ok.mp written
  cases made
  refine nesting_record_le le_rfl ?_
  simp [nesting_amountDocument spelled]

theorem nesting_slot {α : Type} {write : α → Document} (shallow : ∀ a, (write a).nesting 1 ≤ 2)
    (entry : Option α) : (slotDocument write entry).nesting 1 ≤ 2 := by
  cases entry with
  | none => exact Nat.le_succ 1
  | some a => exact shallow a

theorem nesting_position (p : Position) : p.toDocument.nesting 1 ≤ 2 :=
  nesting_record_le le_rfl (by simp)

theorem nesting_collateral (c : CollateralTerms) : c.toDocument.nesting 1 ≤ 2 :=
  nesting_record_le le_rfl (by simp)

theorem nesting_market (m : MarketTerms) : m.toDocument.nesting 1 ≤ 2 :=
  nesting_record_le le_rfl (by simp)

theorem nesting_account {a : Account} (written : a.toDocument = .ok d) : d.nesting 1 ≤ 4 := by
  obtain ⟨balances, spelled, made⟩ := bind_eq_ok.mp written
  cases made
  have balances_shallow : (Document.list balances).nesting 1 ≤ 2 :=
    nesting_list_le.mpr (forall_of_mapM (fun _ _ _ => nesting_amountDocument) spelled)
  have positions_shallow :
      (Document.list (a.positions.map (slotDocument Position.toDocument))).nesting 1 ≤ 3 :=
    nesting_list_le.mpr (List.forall_mem_map.mpr fun entry _ => nesting_slot nesting_position entry)
  refine nesting_record_le (by decide) ?_
  simp only [List.forall_mem_cons]
  exact ⟨balances_shallow.trans (by decide), positions_shallow, List.forall_mem_nil _⟩

/-- The document of a snapshot has five levels: of members, of the account, of its positions, of one
position, and of a value of it. -/
theorem Snapshot.nesting_toDocument {s : Snapshot} (written : s.toDocument = .ok d) :
    d.nesting 1 ≤ 5 := by
  obtain ⟨account, account_written, written⟩ := bind_eq_ok.mp written
  obtain ⟨accruals, accruals_written, written⟩ := bind_eq_ok.mp written
  obtain ⟨prices, prices_written, written⟩ := bind_eq_ok.mp written
  obtain ⟨marks, marks_written, made⟩ := bind_eq_ok.mp written
  cases made
  have collaterals_shallow :
      (Document.list (s.collaterals.map (slotDocument CollateralTerms.toDocument))).nesting 1 ≤ 3 :=
    nesting_list_le.mpr (List.forall_mem_map.mpr fun entry _ => nesting_slot nesting_collateral entry)
  have markets_shallow :
      (Document.list (s.markets.map (slotDocument MarketTerms.toDocument))).nesting 1 ≤ 3 :=
    nesting_list_le.mpr (List.forall_mem_map.mpr fun entry _ => nesting_slot nesting_market entry)
  have accruals_shallow : (Document.list accruals).nesting 1 ≤ 3 :=
    nesting_list_le.mpr (forall_of_mapM (fun _ _ _ => nesting_accrual) accruals_written)
  have prices_shallow : (Document.list prices).nesting 1 ≤ 3 :=
    nesting_list_le.mpr (forall_of_mapM (fun _ _ _ => nesting_price) prices_written)
  have marks_shallow : (Document.list marks).nesting 1 ≤ 2 :=
    nesting_list_le.mpr (forall_of_mapM (fun _ _ _ => nesting_amountDocument) marks_written)
  have fundings_shallow : (Document.list (s.fundings.map .integer)).nesting 1 ≤ 2 :=
    nesting_list_le.mpr (List.forall_mem_map.mpr fun _ _ => le_rfl)
  refine nesting_record_le (by decide) ?_
  simp only [List.forall_mem_cons, Document.nesting_integer, List.not_mem_nil, false_implies,
    implies_true, and_true]
  refine ⟨nesting_account account_written, ?_⟩
  omega

end Depth

namespace Snapshot

variable {s : Snapshot} {d : Document}

/-- The document of a regular snapshot has nothing in it that the screen refuses. -/
theorem admissible_toDocument (regular : s.Regular) (written : s.toDocument = .ok d) :
    d.admissible = true := by
  obtain ⟨account, account_written, written⟩ := bind_eq_ok.mp written
  obtain ⟨accruals, accruals_written, written⟩ := bind_eq_ok.mp written
  obtain ⟨prices, prices_written, written⟩ := bind_eq_ok.mp written
  obtain ⟨marks, marks_written, made⟩ := bind_eq_ok.mp written
  cases made
  obtain ⟨collateral_texts, market_texts, price_texts⟩ := forall_mem_texts.mp regular.texts
  have collaterals_pass : ∀ entry ∈ s.collaterals,
      (slotDocument CollateralTerms.toDocument entry).admissible = true := fun _ listed =>
    admissible_slot fun c filled => admissible_collateral (collateral_texts c (filled ▸ listed))
  have markets_pass : ∀ entry ∈ s.markets,
      (slotDocument MarketTerms.toDocument entry).admissible = true := fun _ listed =>
    admissible_slot fun m filled => admissible_market (market_texts m (filled ▸ listed))
  have accruals_pass : ∀ x ∈ accruals, x.admissible = true :=
    forall_of_mapM (fun _ _ _ => admissible_accrual) accruals_written
  have prices_pass : ∀ x ∈ prices, x.admissible = true :=
    forall_of_mapM (fun e listed _ => admissible_price (price_texts e listed)) prices_written
  have marks_pass : ∀ x ∈ marks, x.admissible = true :=
    forall_of_mapM (fun _ _ _ => admissible_amountDocument) marks_written
  simp only [Document.admissible_record, Document.admissible_list, List.forall_mem_cons,
    List.forall_mem_map]
  exact ⟨admissible_account account_written, rfl, rfl, collaterals_pass, markets_pass,
    accruals_pass, prices_pass, marks_pass, fun _ _ => rfl, List.forall_mem_nil _⟩

/-- A written snapshot is read again, with its fixed-point fields rounded to the precision of texts.
-/
theorem ofDocument_toDocument_nearest (room : Room) (regular : s.Regular)
    (written : s.toDocument = .ok d) : ofDocument room d .null = .ok (s.mapAmounts nearest) := by
  have screened := admissible_toDocument regular written
  have shallow : d.nesting 1 ≤ room.calls :=
    (nesting_toDocument written).trans (le_trans (by decide) room.ample)
  obtain ⟨account, account_written, written⟩ := bind_eq_ok.mp written
  obtain ⟨accruals, accruals_written, written⟩ := bind_eq_ok.mp written
  obtain ⟨prices, prices_written, written⟩ := bind_eq_ok.mp written
  obtain ⟨marks, marks_written, made⟩ := bind_eq_ok.mp written
  cases made
  have account_read := reads_account account_written regular.keys
  have collaterals_read (name : String) : list name (slot CollateralTerms.ofMembers?)
      (.list (s.collaterals.map (slotDocument CollateralTerms.toDocument))) = .ok s.collaterals :=
    list_map fun _ _ => reads_slot fun c _ => reads_collateral c
  have markets_read (name : String) : list name (slot MarketTerms.ofMembers?)
      (.list (s.markets.map (slotDocument MarketTerms.toDocument))) = .ok s.markets :=
    list_map fun _ _ => reads_slot fun m _ => reads_market m
  have accruals_read (name : String) : list name Accrual.ofDocument (.list accruals) =
      .ok (s.accruals.map (Accrual.mapAmounts nearest)) :=
    list_mapM accruals_written fun _ _ => reads_accrual
  have prices_read (name : String) : list name PriceEntry.ofDocument (.list prices) =
      .ok (s.prices.entries.map (PriceEntry.mapAmount nearest)) :=
    list_mapM prices_written fun _ _ => reads_price
  have marks_read (name : String) : list name amount (.list marks) = .ok (s.marks.map nearest) :=
    list_mapM marks_written fun _ _ => reads_amountDocument
  have fundings_read (name : String) :
      list name integer (.list (s.fundings.map .integer)) = .ok s.fundings :=
    list_map fun _ _ _ => rfl
  have passed := (Document.screen_eq_ok _ room.calls {}).mpr ⟨screened, shallow⟩
  rw [Document.record] at passed
  -- The prices are in order already, so sorting them leaves them where they are.
  have table := PriceTable.ofEntries_of_ordered (regular.ordered.mapAmount nearest)
  simp [ofDocument, ofMembers, accountDocument, Document.record, members, required, Datum.optional,
    List.lookup_cons, passed, account_read, collaterals_read, markets_read, accruals_read, prices_read,
    marks_read, fundings_read, table, mapAmounts, integer]

theorem ofDocument_toDocument_of_fits (room : Room) (regular : s.Regular)
    (fields : ∀ n ∈ s.amounts, Spellable n ∧ FitsPrecision n) :
    ∃ d, s.toDocument = .ok d ∧ ofDocument room d .null = .ok s := by
  obtain ⟨d, written⟩ := toDocument_returns_iff.mpr fun n listed => (fields n listed).1
  have same : s.mapAmounts nearest = s :=
    mapAmounts_eq_self_iff.mpr fun n listed => (nearest_eq_self_iff n).mpr (fields n listed).2
  refine ⟨d, written, ?_⟩
  rw [ofDocument_toDocument_nearest room regular written, same]

/-- A regular snapshot comes back from its document as it was, when its fixed-point fields lie in
their range and have no more significant digits than a text may have. -/
theorem ofDocument_toDocument (room : Room) (s : Snapshot) (regular : s.Regular)
    (fields : ∀ n ∈ s.amounts, Width.i128.Holds n ∧ FitsPrecision n) :
    ∃ d, s.toDocument = .ok d ∧ ofDocument room d .null = .ok s :=
  ofDocument_toDocument_of_fits room regular fun n listed =>
    ⟨(fields n listed).1.spellable, (fields n listed).2⟩

/-- Empty slots, two prices of one symbol, a negative fraction, and a balance whose digits end in
more zeros than the precision keeps. -/
def assorted : Snapshot where
  account := {
    balances := [-500000000000, 10 ^ 38]
    positions := [none, some { key := 1 :: List.replicate 31 0, size := -4, realized := 30 }] }
  collaterals := [some ⟨"usd", "USD", 1000, 0⟩, none]
  markets := [none, some ⟨"A", 1, 101⟩]
  accruals := [{}, { borrow := 1010000000001 }]
  prices := ⟨[⟨"USD", 1000000000000⟩, ⟨"USD", 999000000000⟩, ⟨"eth", 0⟩]⟩
  marks := [0, 33300000000000]
  fundings := [12, -3]
  collateralCount := 2
  marketCount := 2

theorem ofDocument_toDocument_assorted :
    assorted.Regular ∧ (∀ n ∈ assorted.amounts, Width.i128.Holds n ∧ FitsPrecision n) ∧
    ∃ d, assorted.toDocument = .ok d ∧ ofDocument ⟨8, by decide⟩ d .null = .ok assorted := by
  have regular : assorted.Regular := {
    keys := by decide
    ordered := by unfold PriceTable.Ordered; decide
    texts := by decide }
  have fields : ∀ n ∈ assorted.amounts, Width.i128.Holds n ∧ FitsPrecision n := by decide
  exact ⟨regular, fields, ofDocument_toDocument _ assorted regular fields⟩

end Snapshot
end Solvency
