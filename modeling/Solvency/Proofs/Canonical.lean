import Solvency.Host
import Solvency.Proofs.Decoded

/-! The canonical form. Whatever document a snapshot comes from, writing the snapshot and reading it
again rounds its fixed-point fields to the precision of texts; the document written is canonical
where that changes nothing. -/
namespace Solvency.Snapshot

open Datum

variable {d given : Document} {s : Snapshot}

/-- The document of the snapshot gives the snapshot again, and is the document of what it gives. -/
def Canonical (room : Room) (s : Snapshot) : Prop :=
  ∃ d t, s.toDocument = .ok d ∧ ofDocument room d .null = .ok t ∧ t = s ∧ t.toDocument = .ok d

theorem canonical_iff_of_regular {room : Room} (regular : s.Regular) :
    s.Canonical room ↔ ∀ n ∈ s.amounts, Spellable n ∧ FitsPrecision n := by
  constructor
  · rintro ⟨d, t, written, read, rfl, -⟩ n listed
    have same : t.mapAmounts nearest = t :=
      Except.ok.inj ((ofDocument_toDocument_nearest room regular written).symm.trans read)
    exact ⟨toDocument_returns_iff.mp ⟨d, written⟩ n listed,
      (nearest_eq_self_iff n).mp (mapAmounts_eq_self_iff.mp same n listed)⟩
  · intro fields
    obtain ⟨d, written, read⟩ := ofDocument_toDocument_of_fits room regular fields
    exact ⟨d, s, written, read, rfl, written⟩

/-- What was read is written like what it was read from exactly if nothing was rounded. -/
theorem rewritten_iff (written : s.toDocument = .ok d) :
    (s.mapAmounts nearest).toDocument = .ok d ↔ ∀ n ∈ s.amounts, FitsPrecision n := by
  simp only [← nearest_eq_self_iff]
  constructor
  · intro rewritten
    have same := amounts_of_toDocument rewritten written
    rw [amounts_mapAmounts] at same
    exact map_eq_self_iff.mp same
  · intro fits
    rw [mapAmounts_eq_self_iff.mpr fits]
    exact written

/-- A snapshot that comes from a document is written if its fixed-point fields have numerals, and
what is written is read with these fields rounded. The form is canonical if none of them is too
long, as none within the range of the protocol is. -/
theorem canonical_iff (room room' : Room) (d given : Document) (s : Snapshot)
    (read : ofDocument room d given = .ok s) :
    ((∃ d₁, s.toDocument = .ok d₁) ↔ ∀ n ∈ s.amounts, Spellable n) ∧
    (∀ d₁, s.toDocument = .ok d₁ →
      ∃ t, ofDocument room' d₁ .null = .ok t ∧ t = s.mapAmounts nearest ∧
        (t.toDocument = .ok d₁ ↔ ∀ n ∈ s.amounts, FitsPrecision n)) ∧
    (s.Canonical room' ↔ ∀ n ∈ s.amounts, Spellable n ∧ FitsPrecision n) ∧
    ((∀ n ∈ s.amounts, Width.i128.Holds n) → s.Canonical room') := by
  have regular := regular_of_ofDocument read
  have canonical : s.Canonical room' ↔ ∀ n ∈ s.amounts, Spellable n ∧ FitsPrecision n :=
    canonical_iff_of_regular regular
  obtain ⟨ms, _, _, own, _, parts⟩ := ofDocument_eq_ok.mp read
  refine ⟨toDocument_returns_iff, fun d₁ written => ?_, canonical, fun held => ?_⟩
  · exact ⟨_, ofDocument_toDocument_nearest room' regular written, rfl, rewritten_iff written⟩
  · refine canonical.mpr fun n listed => ⟨(held n listed).spellable, ?_⟩
    obtain ⟨_, _, amount_read⟩ := parts.amounts n listed
    exact fits_of_holds amount_read (held n listed)

/-- Prices out of order, two of them of one symbol, in both spellings of amounts. -/
def unordered : Document :=
  .record [
    ("total_collaterals", "1"),
    ("collaterals", .list [
      .record [("mint", "usd"), ("oracle_symbol", "B"), ("weight", .integer 900)],
      .null]),
    ("oracles", .list [
      .record [("symbol", "B"), ("price", .integer 2)],
      .record [("symbol", "A"), ("price", " 0.50 ")],
      .record [("symbol", "B"), ("price", "-1.250")]])]

/-- An account given beside it, with an empty key and with one that is marked. -/
def ownAccount : Document :=
  .record [
    ("collateral", .list [.integer 3, "-007.000000000001"]),
    ("positions", .list [
      .null,
      .record [("key", .text (Text.ofChars (List.replicate 64 '0')))],
      .record [("key", .text (Text.ofChars ("0XaB".toList ++ List.replicate 62 '1'))),
        ("pos_size", "-5")]])]

/-- The snapshot that is read from them. -/
def unorderedSnapshot : Snapshot where
  account := {
    balances := [3000000000000, -7000000000001]
    positions := [none, none, some { key := 0xAB :: List.replicate 31 0x11, size := -5 }] }
  collaterals := [some ⟨"usd", "B", 900, 0⟩, none]
  prices := ⟨[⟨"A", 500000000000⟩, ⟨"B", 2000000000000⟩, ⟨"B", -1250000000000⟩]⟩
  collateralCount := 1

theorem ofDocument_unordered :
    ofDocument Host.usual.alone unordered ownAccount = .ok unorderedSnapshot := rfl

theorem canonical_iff_unordered :
    ∃ s, ofDocument Host.usual.alone unordered ownAccount = .ok s ∧
    (∀ n ∈ s.amounts, Width.i128.Holds n) ∧ s.Canonical Host.usual.alone :=
  ⟨_, ofDocument_unordered, by decide,
    (canonical_iff _ _ _ _ _ ofDocument_unordered).2.2.2 (by decide)⟩

/-- A balance of 29 digits, counted in whole units. -/
def longBalanceDocument : Document :=
  .record [("account", .record [("collateral", .list [.integer 12345678901234567890123456789])])]

/-- The snapshot that is read from it. -/
def longBalance : Snapshot where
  account := { balances := [12345678901234567890123456789000000000000] }

/-- The balance is read and written exactly, but the decimal that is written is read with 28 digits.
-/
theorem not_canonical :
    ∃ d₁ t, ofDocument Host.usual.alone longBalanceDocument .null = .ok longBalance ∧
    longBalance.toDocument = .ok d₁ ∧ ofDocument Host.usual.alone d₁ .null = .ok t ∧
    t ≠ longBalance ∧ t.toDocument ≠ .ok d₁ := by
  have read : ofDocument Host.usual.alone longBalanceDocument .null = .ok longBalance := rfl
  -- The whole units are well below the limit for numerals.
  have spellable : ∀ n ∈ longBalance.amounts, Spellable n :=
    List.forall_mem_singleton.mpr (short_of_lt (by decide)).writable
  obtain ⟨d₁, written⟩ := toDocument_returns_iff.mpr spellable
  have reread := ofDocument_toDocument_nearest Host.usual.alone (regular_of_ofDocument read) written
  exact ⟨d₁, _, read, written, reread, by decide, mt (rewritten_iff written).mp (by decide)⟩

end Solvency.Snapshot
