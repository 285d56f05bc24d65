import Solvency.Proofs.AmountText
import Solvency.Proofs.Overflow
import Solvency.Proofs.Reading
import Solvency.Snapshot.Encode

/-! Writing snapshots. A document is made exactly if every fixed-point field has a decimal, and it
tells these fields: no two lists of them have the same document. -/
namespace Solvency

open Datum

def Accrual.amounts (a : Accrual) : List Int := [a.supply, a.borrow]

/-- The fixed-point fields of a snapshot. -/
def Snapshot.amounts (s : Snapshot) : List Int :=
  s.account.balances ++ s.accruals.flatMap Accrual.amounts ++
    s.prices.entries.map PriceEntry.price ++ s.marks

/-- The whole units of an amount have a numeral. -/
def Datum.Spellable (raw : Int) : Prop := Writable (raw.natAbs / Fixed.scale.toNat : Nat)

theorem Writable.spellable {raw : Int} (writable : Writable raw) : Spellable raw :=
  (Nat.div_le_self _ _).trans_lt writable

theorem Width.Holds.spellable {w : Width} {raw : Int} (held : w.Holds raw) : Spellable raw :=
  held.short.writable.spellable

section Amounts

variable {raw raw' : Int} {d : Document}

theorem amountDocument_eq_ok : amountDocument raw = .ok d ↔
    Spellable raw ∧ d = .text (Text.ofChars (amountChars raw)) := by
  rw [amountDocument, map_eq_ok]
  constructor
  · rintro ⟨t, written, rfl⟩
    obtain ⟨spellable, rfl⟩ := amountText_eq_ok.mp written
    exact ⟨spellable, rfl⟩
  · rintro ⟨spellable, rfl⟩
    exact ⟨_, amountText_eq_ok.mpr ⟨spellable, rfl⟩, rfl⟩

theorem amountDocument_returns_iff : (∃ d, amountDocument raw = .ok d) ↔ Spellable raw := by
  simp [amountDocument_eq_ok]

theorem amountDocument_inj (written : amountDocument raw = .ok d)
    (written' : amountDocument raw' = .ok d) : raw = raw' := by
  obtain ⟨_, rfl⟩ := amountDocument_eq_ok.mp written
  obtain ⟨_, same⟩ := amountDocument_eq_ok.mp written'
  exact amountChars_injective (Text.ofChars_inj.mp (Document.text.inj same))

end Amounts

section Parts

variable {d : Document}

theorem Accrual.toDocument_returns_iff {a : Accrual} :
    (∃ d, a.toDocument = .ok d) ↔ ∀ n ∈ a.amounts, Spellable n := by
  rw [toDocument, bind_returns_iff fun _ => bind_pure_returns_iff]
  simp [amountDocument_returns_iff, amounts]

theorem PriceEntry.toDocument_returns_iff {e : PriceEntry} :
    (∃ d, e.toDocument = .ok d) ↔ Spellable e.price := by
  rw [toDocument, bind_pure_returns_iff, amountDocument_returns_iff]

theorem Account.toDocument_returns_iff {a : Account} :
    (∃ d, a.toDocument = .ok d) ↔ ∀ n ∈ a.balances, Spellable n := by
  rw [toDocument, bind_pure_returns_iff, mapM_returns_iff]
  simp only [amountDocument_returns_iff]

theorem Accrual.toDocument_inj {a b : Accrual} (written : a.toDocument = .ok d)
    (written' : b.toDocument = .ok d) : a = b := by
  simp only [toDocument, bind_eq_ok] at written written'
  obtain ⟨_, supply, _, borrow, made⟩ := written
  obtain ⟨_, supply', _, borrow', made'⟩ := written'
  cases made
  have same := Document.record_inj.mp (Except.ok.inj made')
  simp only [List.cons.injEq, Prod.mk.injEq, true_and, and_true] at same
  obtain ⟨rfl, rfl⟩ := same
  exact congr (congrArg mk (amountDocument_inj supply supply')) (amountDocument_inj borrow borrow')

theorem PriceEntry.toDocument_inj {a b : PriceEntry} (written : a.toDocument = .ok d)
    (written' : b.toDocument = .ok d) : a = b := by
  simp only [toDocument, bind_eq_ok] at written written'
  obtain ⟨_, price, made⟩ := written
  obtain ⟨_, price', made'⟩ := written'
  cases made
  have same := Document.record_inj.mp (Except.ok.inj made')
  simp only [List.cons.injEq, Prod.mk.injEq, Document.text.injEq, true_and, and_true] at same
  obtain ⟨symbol, rfl⟩ := same
  exact congr (congrArg mk symbol.symm) (amountDocument_inj price price')

theorem Account.balances_of_toDocument {a b : Account} (written : a.toDocument = .ok d)
    (written' : b.toDocument = .ok d) : a.balances = b.balances := by
  simp only [toDocument, bind_eq_ok] at written written'
  obtain ⟨_, balances, made⟩ := written
  obtain ⟨_, balances', made'⟩ := written'
  cases made
  have same := Document.record_inj.mp (Except.ok.inj made')
  simp only [List.cons.injEq, Prod.mk.injEq, Document.list.injEq, true_and, and_true] at same
  obtain ⟨rfl, _⟩ := same
  exact eq_of_mapM (fun _ _ _ => amountDocument_inj) balances balances'

end Parts

namespace Snapshot

variable {s t : Snapshot} {d : Document}

theorem toDocument_returns_iff : (∃ d, s.toDocument = .ok d) ↔ ∀ n ∈ s.amounts, Spellable n := by
  rw [toDocument, bind_returns_iff fun _ => bind_returns_iff fun _ => bind_returns_iff fun _ =>
    bind_pure_returns_iff]
  simp only [amounts, mapM_returns_iff, Account.toDocument_returns_iff,
    Accrual.toDocument_returns_iff, PriceEntry.toDocument_returns_iff,
    amountDocument_returns_iff, List.forall_mem_append, List.forall_mem_flatMap,
    List.forall_mem_map, and_assoc]

/-- A document tells the amounts that it was written for. -/
theorem amounts_of_toDocument (written : s.toDocument = .ok d) (written' : t.toDocument = .ok d) :
    s.amounts = t.amounts := by
  simp only [toDocument, bind_eq_ok] at written written'
  obtain ⟨_, account, _, accruals, _, prices, _, marks, made⟩ := written
  obtain ⟨_, account', _, accruals', _, prices', _, marks', made'⟩ := written'
  cases made
  have same := Document.record_inj.mp (Except.ok.inj made')
  simp only [List.cons.injEq, Prod.mk.injEq, Document.list.injEq, true_and, and_true] at same
  obtain ⟨rfl, _, _, _, _, rfl, rfl, rfl, _⟩ := same
  rw [amounts, amounts, Account.balances_of_toDocument account account',
    eq_of_mapM (fun _ _ _ => Accrual.toDocument_inj) accruals accruals',
    eq_of_mapM (fun _ _ _ => PriceEntry.toDocument_inj) prices prices',
    eq_of_mapM (fun _ _ _ => amountDocument_inj) marks marks']

end Snapshot
end Solvency
