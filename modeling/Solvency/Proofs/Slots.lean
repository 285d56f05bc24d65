import Mathlib.Data.List.Forall2
import Solvency.Proofs.Exact
import Solvency.Proofs.Success

/-! Slots of a snapshot. A look-up succeeds exactly if every vector has its entry, and then gives
these entries. -/
namespace Solvency

theorem slotAt_eq_ok {α : Type} {slots : List α} {i : Nat} {a : α} :
    slotAt slots i = .ok a ↔ slots[i]? = some a := by
  simp only [slotAt, Int.natCast_nonneg, if_true, Int.toNat_natCast]
  cases slots[i]? <;> simp

/-- A look-up that is refused beforehand, fails for a vacant slot and reads on from an occupied one. -/
theorem guarded_eq_ok {α β : Type} {absent : Prop} {_ : Decidable absent} {missing vacant : Fault}
    {slots : List (Option α)} {i : Nat} {next : Option α → Except Fault β} {b : β}
    (fails : next none = fail vacant) :
    (if absent then fail missing else slotAt slots i >>= next) = .ok b ↔
      ¬ absent ∧ ∃ a, slots[i]? = some (some a) ∧ next (some a) = .ok b := by
  by_cases refused : absent
  · simp [refused]
  · rw [if_neg refused, bind_eq_ok]
    constructor
    · rintro ⟨slot, found, done⟩
      cases slot with
      | none =>
        rw [fails] at done
        exact absurd done (fail_ne_ok _ _)
      | some a => exact ⟨refused, a, slotAt_eq_ok.mp found, done⟩
    · rintro ⟨_, a, found, done⟩
      exact ⟨some a, slotAt_eq_ok.mpr found, done⟩

theorem PriceTable.mem_of_get? {t : PriceTable} {symbol : Text} {e : PriceEntry}
    (found : t.get? symbol = some e) : e ∈ t.entries := by
  unfold get? at found
  split at found
  · contradiction
  · split at found
    · rename_i entry at_place
      split at found
      · cases found
        exact List.mem_of_getElem? at_place
      · contradiction
    · contradiction

theorem forall₂_zipIdx {α β : Type} {R : α → β → Prop} {xs : List α} {ys : List β} (start : Nat)
    (related : List.Forall₂ R xs ys) :
    List.Forall₂ (fun x y => y.2 = x.2 ∧ R x.1 y.1) (xs.zipIdx start) (ys.zipIdx start) := by
  induction related generalizing start with
  | nil => exact .nil
  | cons first _ ih => exact .cons ⟨rfl, first⟩ (ih (start + 1))

namespace Snapshot

variable {s : Snapshot} {i j : Nat} {p : Position} {raw : Int}

theorem marketAt_eq_ok {m : MarketSlot} : s.marketAt i = .ok m ↔
    s.markets[i]? = some (some m.terms) ∧ s.marks[i]? = some m.mark ∧
    s.fundings[i]? = some m.funding := by
  refine (guarded_eq_ok rfl).trans ?_
  simp only [bind_eq_ok, slotAt_eq_ok]
  constructor
  · rintro ⟨_, terms, found, mark, marked, funding, funded, made⟩
    cases made
    exact ⟨found, marked, funded⟩
  · rintro ⟨found, marked, funded⟩
    refine ⟨?_, m.terms, found, m.mark, marked, m.funding, funded, rfl⟩
    have := (List.getElem?_eq_some_iff.mp found).1
    have := (List.getElem?_eq_some_iff.mp marked).1
    have := (List.getElem?_eq_some_iff.mp funded).1
    omega

theorem collateralAt_eq_ok {c : CollateralSlot} : s.collateralAt j = .ok c ↔
    s.collaterals[j]? = some (some c.terms) ∧ s.accruals[j]? = some c.accrual := by
  refine (guarded_eq_ok rfl).trans ?_
  simp only [bind_eq_ok, slotAt_eq_ok]
  constructor
  · rintro ⟨_, terms, found, accrual, accrued, made⟩
    cases made
    exact ⟨found, accrued⟩
  · rintro ⟨found, accrued⟩
    refine ⟨?_, c.terms, found, c.accrual, accrued, rfl⟩
    have := (List.getElem?_eq_some_iff.mp found).1
    have := (List.getElem?_eq_some_iff.mp accrued).1
    omega

theorem marketAt_exact {m : MarketSlot} (found : s.marketAt i = .ok m) : m = Exact.market s i := by
  obtain ⟨terms, mark, funding⟩ := marketAt_eq_ok.mp found
  simp [Exact.market, terms, mark, funding]

theorem collateralAt_exact {c : CollateralSlot} (found : s.collateralAt j = .ok c) :
    c = Exact.asset s j := by
  obtain ⟨terms, accrual⟩ := collateralAt_eq_ok.mp found
  simp [Exact.asset, terms, accrual]

theorem priceOf_eq_ok {symbol : Text} {price : Int} : s.priceOf symbol = .ok price ↔
    (s.prices.get? symbol).map PriceEntry.price = some price := by
  unfold priceOf
  cases s.prices.get? symbol <;> simp

theorem priceOf_exact {price : Int}
    (found : s.priceOf (Exact.asset s j).terms.feed = .ok price) : price = Exact.price s j := by
  simp [Exact.price, priceOf_eq_ok.mp found]

theorem mem_positions : (i, p) ∈ s.positions ↔
    (i : Int) < s.marketCount ∧ s.account.positions[i]? = some (some p) := by
  simp [positions, List.mem_zipIdx_iff_getElem?, List.getElem?_take]

theorem mem_balances : (j, raw) ∈ s.balances ↔
    (j : Int) < s.collateralCount ∧ s.account.balances[j]? = some raw := by
  simp [balances, List.mem_zipIdx_iff_getElem?, List.getElem?_take]

theorem positions_ascending (s : Snapshot) : s.positions.Pairwise fun x y => x.1 < y.1 := by
  refine List.Pairwise.filterMap _ ?_ (List.pairwise_map.mp (?_ : (List.map Prod.snd _).Pairwise (· < ·)))
  · rintro ⟨p, i⟩ ⟨q, j⟩ before x first y second
    obtain ⟨_, _, rfl⟩ := Option.map_eq_some_iff.mp first
    obtain ⟨_, _, rfl⟩ := Option.map_eq_some_iff.mp second
    exact before
  · rw [List.zipIdx_map_snd]
    exact List.pairwise_lt_range'

theorem mem_borrows {x : Nat × Int} : x ∈ Exact.borrows s ↔ x ∈ s.balances ∧ x.2 < 0 := by
  simp [Exact.borrows]

/-- Accounts that are related slot by slot are related in their active positions. -/
theorem positions_related {t : Snapshot} {R : Position → Position → Prop}
    (count : t.marketCount = s.marketCount)
    (slots : List.Forall₂ (Option.Rel R) s.account.positions t.account.positions) :
    List.Forall₂ (fun x y => y.1 = x.1 ∧ R x.2 y.2) s.positions t.positions := by
  unfold positions
  rw [count]
  refine List.rel_filterMap ?_ (forall₂_zipIdx 0 (List.forall₂_take _ slots))
  rintro ⟨p, i⟩ ⟨q, i'⟩ ⟨index, position⟩
  cases position with
  | none => exact .none
  | some position => exact .some ⟨index, position⟩

end Snapshot
end Solvency
