import Solvency.Proofs.Accepted
import Solvency.Proofs.PriceOrder

/-! Look-ups of prices. In a table in symbol order, halving stops at the entry that a search from the
front would find, so a symbol has no price exactly if it is empty or no entry carries it. Of several
entries of one symbol the first one given is found. Validation establishes the order. -/
namespace Solvency

namespace PriceTable

/-- The entries in front of a place are those whose symbols are before the one wanted. -/
structure Divides (entries : List PriceEntry) (symbol : Text) (n : Nat) : Prop where
  front : ∀ i < n, ∀ e, entries[i]? = some e → e.symbol.before symbol = true
  rest : ∀ i, n ≤ i → ∀ e, entries[i]? = some e → e.symbol.before symbol = false

variable {t : PriceTable} {symbol : Text}

/-- Symbols do not descend along an ordered table. -/
theorem Ordered.symbol_le (ordered : t.Ordered) {i j : Nat} {a b : PriceEntry} (le : i ≤ j)
    (first : t.entries[i]? = some a) (second : t.entries[j]? = some b) :
    a.symbol.map CodePoint.number ≤ b.symbol.map CodePoint.number := by
  rcases le.eq_or_lt with rfl | lt
  · rw [first, Option.some.injEq] at second
    rw [second]
  · obtain ⟨bound, rfl⟩ := List.getElem?_eq_some_iff.mp first
    obtain ⟨bound', rfl⟩ := List.getElem?_eq_some_iff.mp second
    exact Text.not_before_iff.mp (List.pairwise_iff_getElem.mp ordered i j bound bound' lt)

/-- Halving keeps what it has seen on the right side of the bounds. -/
theorem place_divides (ordered : t.Ordered) (lo hi : Nat) (inside : hi ≤ t.entries.length)
    (front : ∀ i < lo, ∀ e, t.entries[i]? = some e → e.symbol.before symbol = true)
    (rest : ∀ i, hi ≤ i → ∀ e, t.entries[i]? = some e → e.symbol.before symbol = false) :
    Divides t.entries symbol (place t.entries symbol lo hi) := by
  fun_induction place t.entries symbol lo hi with
  | case1 lo hi lt middle e found before ih =>
    refine ih inside (fun i seen a listed => ?_) rest
    have le := ordered.symbol_le (Nat.le_of_lt_succ seen) listed found
    exact Text.before_iff.mpr (le.trans_lt (Text.before_iff.mp before))
  | case2 lo hi lt middle e found before ih =>
    refine ih (by omega) front fun i seen a listed => ?_
    have le := ordered.symbol_le seen found listed
    exact Text.not_before_iff.mpr ((Text.not_before_iff.mp (by simpa using before)).trans le)
  | case3 lo hi lt middle missing =>
    have bound := List.getElem?_eq_none_iff.mp missing
    omega
  | case4 lo hi done => exact ⟨front, fun i seen => rest i (by omega)⟩

/-- Where the entry at the dividing place is of another symbol, no entry from there on is of the one
wanted. -/
theorem Divides.absent {n : Nat} {e : PriceEntry} (divides : Divides t.entries symbol n)
    (ordered : t.Ordered) (found : t.entries[n]? = some e) (other : e.symbol ≠ symbol) :
    ∀ a ∈ t.entries.drop n, a.symbol ≠ symbol := by
  rintro a member rfl
  obtain ⟨k, listed⟩ := List.mem_iff_getElem?.mp member
  rw [List.getElem?_drop] at listed
  have le := ordered.symbol_le (Nat.le_add_right n k) found listed
  exact other (Text.eq_of_not_before (divides.rest n le_rfl e found) (Text.not_before_iff.mpr le))

/-- A look-up finds the first entry of the symbol. -/
theorem get?_eq_find? (ordered : t.Ordered) (nonempty : symbol ≠ []) :
    t.get? symbol = t.entries.find? fun e => e.symbol = symbol := by
  have divides : Divides t.entries symbol (place t.entries symbol 0 t.entries.length) := by
    refine place_divides ordered 0 _ le_rfl (by simp) fun i beyond e listed => ?_
    rw [List.getElem?_eq_none beyond] at listed
    contradiction
  rw [get?, if_neg (by simpa using nonempty)]
  generalize place t.entries symbol 0 t.entries.length = n at divides
  have skipped : (t.entries.take n).find? (fun e => e.symbol = symbol) = none := by
    rw [List.find?_eq_none]
    intro a member
    obtain ⟨k, inside, rfl⟩ := List.mem_take_iff_getElem.mp member
    have before := divides.front k (by omega) _ (List.getElem?_eq_getElem (by omega))
    rintro same
    rw [of_decide_eq_true same, Text.not_before_self] at before
    contradiction
  conv_rhs => rw [← List.take_append_drop n t.entries, List.find?_append, skipped, Option.none_or]
  cases found : t.entries[n]? with
  | none => rw [List.drop_eq_nil_of_le (List.getElem?_eq_none_iff.mp found), List.find?_nil]
  | some e =>
    by_cases same : e.symbol = symbol
    · obtain ⟨bound, rfl⟩ := List.getElem?_eq_some_iff.mp found
      rw [List.drop_eq_getElem_cons bound, List.find?_cons_of_pos (by simpa using same)]
      exact if_pos same
    · have absent := divides.absent ordered found same
      rw [List.find?_eq_none.mpr (by simpa using absent)]
      exact if_neg same

theorem get?_eq_none_iff (ordered : t.Ordered) :
    t.get? symbol = none ↔ symbol = [] ∨ symbol ∉ t.symbols := by
  by_cases empty : symbol = []
  · simp [empty, get?]
  · rw [get?_eq_find? ordered empty, List.find?_eq_none]
    simp [empty, symbols]

/-- A search from the front of the table finds what a search from the front of the entries finds. -/
theorem find?_ofEntries (entries : List PriceEntry) (symbol : Text) :
    (ofEntries entries).entries.find? (fun e => e.symbol = symbol) =
      entries.find? fun e => e.symbol = symbol := by
  rw [← List.head?_filter, filter_ofEntries, List.head?_filter]

/-- A table built from entries holds just these, in the order of the code points of their symbols. A
look-up finds the first one given for the symbol, and nothing if there is none or the symbol is empty.
-/
theorem get?_ofEntries (entries : List PriceEntry) (symbol : Text) :
    (ofEntries entries).entries.Perm entries ∧
    ((ofEntries entries).symbols.Pairwise fun a b =>
      a.map CodePoint.number ≤ b.map CodePoint.number) ∧
    ((ofEntries entries).get? symbol = none ↔ symbol = [] ∨ ∀ e ∈ entries, e.symbol ≠ symbol) ∧
    ∀ e, (ofEntries entries).get? symbol = some e ↔ symbol ≠ [] ∧ e.symbol = symbol ∧
      ∃ earlier later, entries = earlier ++ e :: later ∧ ∀ a ∈ earlier, a.symbol ≠ symbol := by
  have ordered := ordered_ofEntries entries
  refine ⟨perm_sortOrdered _ entries, ?_, ?_, fun e => ?_⟩
  · rw [symbols, List.pairwise_map]
    exact ordered.imp Text.not_before_iff.mp
  · by_cases empty : symbol = []
    · simp [empty, get?]
    · rw [get?_eq_find? ordered empty, find?_ofEntries, List.find?_eq_none]
      simp [empty]
  · by_cases empty : symbol = []
    · simp [empty, get?]
    · rw [get?_eq_find? ordered empty, find?_ofEntries, List.find?_eq_some_iff_append]
      simp [empty]

end PriceTable

namespace Snapshot

/-- Neighbours ascend exactly if all texts do. -/
theorem strictlyAscending_iff_pairwise {symbols : List Text} :
    strictlyAscending symbols = true ↔ symbols.Pairwise fun a b => a.before b = true := by
  have trans : IsTrans Text fun a b => a.before b = true :=
    ⟨fun a b c => by simpa only [Text.before_iff] using lt_trans⟩
  rw [← List.isChain_iff_pairwise]
  fun_induction strictlyAscending symbols with
  | case1 a b rest ih =>
    rw [Bool.and_eq_true, List.isChain_cons_cons]
    exact and_congr_right' ih
  | case2 symbols short =>
    apply iff_of_true rfl
    match symbols, short with
    | [], _ => exact .nil
    | [a], _ => exact .singleton a
    | a :: b :: rest, short => exact (short a b rest rfl).elim

/-- The price table of an accepted snapshot is in symbol order. -/
theorem ordered_of_accepted {s : Snapshot} (accepted : s.violations = []) : s.prices.Ordered := by
  have ascending := satisfies_of_accepted accepted .oracleTableSortedUnique
  have pairs := List.pairwise_map.mp (strictlyAscending_iff_pairwise.mp ascending)
  refine pairs.imp fun {a b} before => Text.not_before_iff.mpr ?_
  exact (Text.before_iff.mp before).le

end Snapshot
end Solvency
