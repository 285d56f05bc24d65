import Solvency.Proofs.Roundtrip

/-! What every snapshot that comes from a document has: keys of full length, prices in order, texts
that passed the screen, and amounts that some document spells. -/
namespace Solvency

open Datum

section Names

variable {name : String} {ms : Members} {d : Document}

theorem CollateralTerms.hasHalf_of_ofMembers {c : CollateralTerms}
    (screened : (Document.mapping ms).admissible = true) (read : ofMembers? name ms = .ok (some c)) :
    c.mint.hasHalf = false ∧ c.feed.hasHalf = false := by
  simp only [ofMembers?, bind_eq_ok] at read
  obtain ⟨_, mint_found, _, mint_read, _, feed_found, _, feed_read, _, _, _, _, _, _, made⟩ := read
  cases made
  exact ⟨Document.hasHalf_of_required screened mint_found mint_read,
    Document.hasHalf_of_required screened feed_found feed_read⟩

theorem MarketTerms.hasHalf_of_ofMembers {m : MarketTerms}
    (screened : (Document.mapping ms).admissible = true) (read : ofMembers? name ms = .ok (some m)) :
    m.symbol.hasHalf = false := by
  simp only [ofMembers?, bind_eq_ok] at read
  obtain ⟨_, found, _, symbol_read, _, _, _, _, _, _, _, _, made⟩ := read
  cases made
  exact Document.hasHalf_of_required screened found symbol_read

theorem PriceEntry.hasHalf_of_ofDocument {e : PriceEntry} (screened : d.admissible = true)
    (read : ofDocument name d = .ok e) : e.symbol.hasHalf = false := by
  simp only [ofDocument, bind_eq_ok] at read
  obtain ⟨_, mapping, _, found, _, symbol_read, _, _, _, _, made⟩ := read
  cases made
  obtain rfl := members_eq_ok.mp mapping
  exact Document.hasHalf_of_required screened found symbol_read

end Names

section Keys

theorem Position.key_of_ofMembers {p : Position} {name : String} {ms : Members}
    (read : ofMembers? name ms = .ok (some p)) : p.key.length = keyLength ∧ p.key ≠ blankKey := by
  obtain ⟨spelled, _, read⟩ := bind_eq_ok.mp read
  obtain ⟨key, key_read, read⟩ := bind_eq_ok.mp read
  split at read
  · cases read
  · rename_i full
    simp only [bind_eq_ok] at read
    obtain ⟨_, _, _, _, _, _, _, _, _, _, _, _, made⟩ := read
    cases made
    exact ⟨length_of_key key_read, full⟩

theorem Account.keys_of_ofDocument {a : Account} {d : Document} (read : ofDocument d = .ok a) :
    ∀ p ∈ a.positions.reduceOption, p.key.length = keyLength ∧ p.key ≠ blankKey := by
  intro p filled
  have listed := List.reduceOption_mem_iff.mp filled
  simp only [ofDocument, bind_eq_ok] at read
  obtain ⟨_, _, _, _, _, positions_read, made⟩ := read
  cases made
  obtain ⟨_, _, _, _, _, slot_read⟩ := origin_of_list positions_read listed
  obtain ⟨_, _, members_read⟩ := origin_of_slot slot_read
  exact Position.key_of_ofMembers members_read

end Keys

section Amounts

/-- Some document gives the amount. -/
def Datum.Amount (n : Int) : Prop := ∃ name d, amount name d = .ok n

theorem amounts_of_list {name : String} {d : Document} {ns : List Int}
    (read : list name amount d = .ok ns) : ∀ n ∈ ns, Amount n := by
  intro n listed
  obtain ⟨_, x, itemName, _, _, item_read⟩ := origin_of_list read listed
  exact ⟨itemName, x, item_read⟩

theorem Account.amounts_of_ofDocument {a : Account} {d : Document} (read : ofDocument d = .ok a) :
    ∀ n ∈ a.balances, Amount n := by
  simp only [ofDocument, bind_eq_ok] at read
  obtain ⟨_, _, _, balances_read, _, _, made⟩ := read
  cases made
  exact amounts_of_list balances_read

theorem Accrual.amounts_of_ofDocument {a : Accrual} {name : String} {d : Document}
    (read : ofDocument name d = .ok a) : ∀ n ∈ a.amounts, Amount n := by
  simp only [ofDocument, bind_eq_ok] at read
  obtain ⟨_, _, _, supply_read, _, borrow_read, made⟩ := read
  cases made
  simpa [amounts] using ⟨⟨_, _, supply_read⟩, ⟨_, _, borrow_read⟩⟩

theorem PriceEntry.amount_of_ofDocument {e : PriceEntry} {name : String} {d : Document}
    (read : ofDocument name d = .ok e) : Amount e.price := by
  simp only [ofDocument, bind_eq_ok] at read
  obtain ⟨_, _, _, _, _, _, _, _, _, price_read, made⟩ := read
  cases made
  exact ⟨_, _, price_read⟩

end Amounts

namespace Snapshot

variable {room : Room} {d given : Document} {s : Snapshot}

/-- The parts of a snapshot as they are read from screened members and from an account. -/
structure ReadFrom (ms : Members) (own : Document) (s : Snapshot) : Prop where
  screened : (Document.mapping ms).admissible = true
  account : Account.ofDocument own = .ok s.account
  collaterals : list "collaterals" (slot CollateralTerms.ofMembers?)
    (Datum.optional ms "collaterals" .null) = .ok s.collaterals
  markets : list "perp_markets" (slot MarketTerms.ofMembers?)
    (Datum.optional ms "perp_markets" .null) = .ok s.markets
  accruals : list "borrows" Accrual.ofDocument (Datum.optional ms "borrows" .null) = .ok s.accruals
  prices : ∃ entries, list "oracles" PriceEntry.ofDocument (Datum.optional ms "oracles" .null) =
    .ok entries ∧ s.prices = PriceTable.ofEntries entries
  marks : list "mark_prices" amount (Datum.optional ms "mark_prices" .null) = .ok s.marks
  fundings : list "funding_indices" integer (Datum.optional ms "funding_indices" .null) =
    .ok s.fundings
  collateralCount : integer "total_collaterals"
    (Datum.optional ms "total_collaterals" (.integer 0)) = .ok s.collateralCount
  marketCount : integer "total_markets" (Datum.optional ms "total_markets" (.integer 0)) =
    .ok s.marketCount

variable {ms : Members}

theorem ofMembers_eq_ok : ofMembers room ms given = .ok s ↔
    (Document.mapping ms).nesting 1 ≤ room.calls ∧
      ∃ own, accountDocument room ms given = .ok own ∧ s.ReadFrom ms own := by
  rw [ofMembers, seq_eq_ok, Document.screen_eq_ok]
  simp only [bind_eq_ok]
  constructor
  · rintro ⟨⟨screened, shallow⟩, own, chosen, account, account_read, collaterals, collaterals_read,
      markets, markets_read, accruals, accruals_read, entries, prices_read, marks, marks_read, fundings,
      fundings_read, collateralCount, collaterals_counted, marketCount, markets_counted, made⟩
    cases made
    exact ⟨shallow, own, chosen, {
      screened := screened
      account := account_read
      collaterals := collaterals_read
      markets := markets_read
      accruals := accruals_read
      prices := ⟨entries, prices_read, rfl⟩
      marks := marks_read
      fundings := fundings_read
      collateralCount := collaterals_counted
      marketCount := markets_counted }⟩
  · rintro ⟨shallow, own, chosen, parts⟩
    obtain ⟨entries, prices_read, table⟩ := parts.prices
    refine ⟨⟨parts.screened, shallow⟩, own, chosen, _, parts.account, _, parts.collaterals, _,
      parts.markets, _, parts.accruals, _, prices_read, _, parts.marks, _, parts.fundings, _,
      parts.collateralCount, _, parts.marketCount, ?_⟩
    rw [← table]
    rfl

theorem ofDocument_eq_ok : ofDocument room d given = .ok s ↔
    ∃ ms, d = .mapping ms ∧ (Document.mapping ms).nesting 1 ≤ room.calls ∧
      ∃ own, accountDocument room ms given = .ok own ∧ s.ReadFrom ms own := by
  simp only [ofDocument, bind_eq_ok, members_eq_ok, ofMembers_eq_ok]

theorem ReadFrom.texts {own : Document} (read : s.ReadFrom ms own) :
    ∀ t ∈ s.texts, t.hasHalf = false := by
  have screened := Document.admissible_optional read.screened
  refine forall_mem_texts.mpr ⟨fun c listed => ?_, fun m listed => ?_, fun e listed => ?_⟩
  · obtain ⟨x, _, passed, slot_read⟩ :=
      Document.admissible_origin (screened _) read.collaterals listed
    obtain ⟨_, rfl, members_read⟩ := origin_of_slot slot_read
    exact CollateralTerms.hasHalf_of_ofMembers passed members_read
  · obtain ⟨x, _, passed, slot_read⟩ := Document.admissible_origin (screened _) read.markets listed
    obtain ⟨_, rfl, members_read⟩ := origin_of_slot slot_read
    exact MarketTerms.hasHalf_of_ofMembers passed members_read
  · obtain ⟨entries, entries_read, table⟩ := read.prices
    rw [table] at listed
    obtain ⟨x, _, passed, entry_read⟩ :=
      Document.admissible_origin (screened _) entries_read (mem_sortOrdered.mp listed)
    exact PriceEntry.hasHalf_of_ofDocument passed entry_read

/-- Every snapshot that comes from a document is regular. -/
theorem regular_of_ofDocument (read : ofDocument room d given = .ok s) : s.Regular := by
  obtain ⟨ms, _, _, own, _, parts⟩ := ofDocument_eq_ok.mp read
  obtain ⟨entries, _, table⟩ := parts.prices
  exact {
    keys := Account.keys_of_ofDocument parts.account
    ordered := table ▸ PriceTable.ordered_ofEntries entries
    texts := parts.texts }

theorem ReadFrom.amounts {own : Document} (read : s.ReadFrom ms own) :
    ∀ n ∈ s.amounts, Amount n := by
  obtain ⟨entries, entries_read, table⟩ := read.prices
  simp only [Snapshot.amounts, List.forall_mem_append, List.forall_mem_flatMap, List.forall_mem_map]
  refine ⟨⟨⟨Account.amounts_of_ofDocument read.account, fun a listed => ?_⟩, fun e listed => ?_⟩,
    amounts_of_list read.marks⟩
  · obtain ⟨_, _, _, _, _, accrual_read⟩ := origin_of_list read.accruals listed
    exact Accrual.amounts_of_ofDocument accrual_read
  · rw [table] at listed
    obtain ⟨_, _, _, _, _, entry_read⟩ := origin_of_list entries_read (mem_sortOrdered.mp listed)
    exact PriceEntry.amount_of_ofDocument entry_read

end Snapshot
end Solvency
