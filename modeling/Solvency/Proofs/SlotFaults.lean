import Solvency.Proofs.PerpetualFaults

/-! Faults of a snapshot's slots. What an active position or balance fails for is told by the entries
that the snapshot has for it. -/
namespace Solvency

/-- All numbers that an account is assessed from are short. -/
structure Snapshot.ShortNumbers (s : Snapshot) : Prop where
  balances : ∀ raw ∈ s.account.balances, Short raw
  positions : ∀ p, some p ∈ s.account.positions → p.ShortNumbers
  weights : ∀ c, some c ∈ s.collaterals → Short c.weight
  baseFactors : ∀ m, some m ∈ s.markets → Short m.baseFactor
  supplies : ∀ a ∈ s.accruals, Short a.supply
  borrows : ∀ a ∈ s.accruals, Short a.borrow
  prices : ∀ e ∈ s.prices.entries, Short e.price
  marks : ∀ mark ∈ s.marks, Short mark
  fundings : ∀ funding ∈ s.fundings, Short funding
  collateralCount : Short s.collateralCount
  marketCount : Short s.marketCount

/-- All numbers of a collateral slot are short. -/
structure CollateralSlot.ShortNumbers (c : CollateralSlot) : Prop where
  weight : Short c.terms.weight
  supply : Short c.accrual.supply
  borrow : Short c.accrual.borrow

namespace Snapshot

/-- What the market slot of an active position may fail for. -/
inductive MarketFault (s : Snapshot) : Fault → Prop where
  | arithmetic {f : Fault} (fault : ArithmeticFault s.ShortNumbers f) : MarketFault s f
  | noEntry {i : Nat} {p : Position} (member : (i, p) ∈ s.positions)
      (absent : s.markets.length ≤ i ∨ s.marks.length ≤ i ∨ s.fundings.length ≤ i) :
      MarketFault s (.margin (.config (.noMarketEntry i)))
  | empty {i : Nat} {p : Position} (member : (i, p) ∈ s.positions)
      (vacant : s.markets[i]? = some none) : MarketFault s (.margin (.config (.emptyMarket i)))

/-- What an active position may fail for. -/
inductive PositionFault (s : Snapshot) : Fault → Prop where
  | market {f : Fault} (fault : s.MarketFault f) : PositionFault s f
  | funding {i : Nat} {p : Position} {m : MarketSlot} {f : Fault} (member : (i, p) ∈ s.positions)
      (sized : p.size ≠ 0) (found : s.marketAt i = .ok m)
      (fault : FundingFault s.ShortNumbers m.terms.decimals f) : PositionFault s f

/-- What an active balance other than zero may fail for. -/
inductive BalanceFault (s : Snapshot) : Fault → Prop where
  | arithmetic {f : Fault} (fault : ArithmeticFault s.ShortNumbers f) : BalanceFault s f
  | noEntry {j : Nat} {raw : Int} (member : (j, raw) ∈ s.balances) (nonzero : raw ≠ 0)
      (absent : s.collaterals.length ≤ j ∨ s.accruals.length ≤ j) :
      BalanceFault s (.margin (.config (.noCollateralEntry j)))
  | empty {j : Nat} {raw : Int} (member : (j, raw) ∈ s.balances) (nonzero : raw ≠ 0)
      (vacant : s.collaterals[j]? = some none) :
      BalanceFault s (.margin (.config (.emptyCollateral j)))
  | unpriced {j : Nat} {raw : Int} {c : CollateralSlot} (member : (j, raw) ∈ s.balances)
      (nonzero : raw ≠ 0) (found : s.collateralAt j = .ok c)
      (absent : s.prices.get? c.terms.feed = none) :
      BalanceFault s (.margin (.priceUnavailable c.terms.feed))
  | weightless {j : Nat} {raw : Int} {c : CollateralSlot} (member : (j, raw) ∈ s.balances)
      (owed : raw < 0) (found : s.collateralAt j = .ok c) (zero : c.terms.weight = 0)
      (requirement : Int) :
      BalanceFault s (.margin (.divisionByZero (.within .i64) requirement))

end Snapshot

theorem slotAt_ends {α : Type} {P : Fault → Prop} {slots : List α} {i : Nat}
    (inside : i < slots.length) : Ends P (fun a => slots[i]? = some a) (slotAt slots i) := by
  have found : slots[i]? = some slots[i] := List.getElem?_eq_getElem inside
  rw [slotAt_eq_ok.mpr found]
  exact found

/-- An index below a short number has a numeral. -/
theorem writable_of_lt {i : Nat} {n : Int} (lt : (i : Int) < n) (short_bound : Short n) :
    Writable i := by
  refine Short.writable ?_
  unfold Short at short_bound ⊢
  omega

namespace Snapshot

variable {s : Snapshot} {i j : Nat} {p : Position} {raw : Int}

theorem marketAt_short {m : MarketSlot} (found : s.marketAt i = .ok m) (numbers : s.ShortNumbers) :
    m.ShortNumbers := by
  obtain ⟨terms, mark, funding⟩ := marketAt_eq_ok.mp found
  exact {
    baseFactor := numbers.baseFactors _ (List.mem_of_getElem? terms)
    mark := numbers.marks _ (List.mem_of_getElem? mark)
    funding := numbers.fundings _ (List.mem_of_getElem? funding) }

theorem collateralAt_short {c : CollateralSlot} (found : s.collateralAt j = .ok c)
    (numbers : s.ShortNumbers) : c.ShortNumbers := by
  obtain ⟨terms, accrual⟩ := collateralAt_eq_ok.mp found
  exact {
    weight := numbers.weights _ (List.mem_of_getElem? terms)
    supply := numbers.supplies _ (List.mem_of_getElem? accrual)
    borrow := numbers.borrows _ (List.mem_of_getElem? accrual) }

theorem position_short (member : (i, p) ∈ s.positions) (numbers : s.ShortNumbers) :
    p.ShortNumbers :=
  numbers.positions p (List.mem_of_getElem? (mem_positions.mp member).2)

theorem balance_short (member : (j, raw) ∈ s.balances) (numbers : s.ShortNumbers) : Short raw :=
  numbers.balances raw (List.mem_of_getElem? (mem_balances.mp member).2)

/-- A finding about an active slot has a message if the number of active slots is short. -/
theorem slot_ends {α : Type} {P : Fault → Prop} {Q : α → Prop} {cause : ConfigFault} {count : Int}
    (active : (i : Int) < count) (cited : cause.cited = [(i : Int)])
    (short_count : s.ShortNumbers → Short count) (fault : P (.margin (.config cause)))
    (arithmetic : ∀ f, ArithmeticFault s.ShortNumbers f → P f) :
    Ends P Q (fail (.margin (.config cause))) := by
  refine Ends.fail fault fun refused => arithmetic _ (.unwritable fun numbers => refused ?_)
  simpa [Fault.cited, MarginFault.cited, cited] using writable_of_lt active (short_count numbers)

theorem marketAt_ends (member : (i, p) ∈ s.positions) :
    Ends s.MarketFault (fun m => s.marketAt i = .ok m) (s.marketAt i) := by
  refine Ends.results (Q := fun m => s.marketAt i = .ok m ∧ True) (Ends.run ?_) fun _ => And.left
  have active := (mem_positions.mp member).1
  unfold marketAt
  split
  · rename_i absent
    have fault : s.MarketFault (.margin (.config (.noMarketEntry i))) :=
      .noEntry member (by exact_mod_cast absent)
    exact slot_ends active rfl ShortNumbers.marketCount fault fun _ => .arithmetic
  · rename_i present
    obtain ⟨markets, marks, fundings⟩ : i < s.markets.length ∧ i < s.marks.length ∧
      i < s.fundings.length := by omega
    refine (slotAt_ends markets).bind fun slot at_index => ?_
    cases slot with
    | none =>
      have fault : s.MarketFault (.margin (.config (.emptyMarket i))) := .empty member at_index
      exact slot_ends active rfl ShortNumbers.marketCount fault fun _ => .arithmetic
    | some terms =>
      refine (slotAt_ends marks).bind fun mark _ => ?_
      exact (slotAt_ends fundings).bind fun funding _ => trivial

theorem collateralAt_ends (member : (j, raw) ∈ s.balances) (nonzero : raw ≠ 0) :
    Ends s.BalanceFault (fun c => s.collateralAt j = .ok c) (s.collateralAt j) := by
  refine Ends.results (Q := fun c => s.collateralAt j = .ok c ∧ True) (Ends.run ?_) fun _ => And.left
  have active := (mem_balances.mp member).1
  unfold collateralAt
  split
  · rename_i absent
    have fault : s.BalanceFault (.margin (.config (.noCollateralEntry j))) :=
      .noEntry member nonzero (by exact_mod_cast absent)
    exact slot_ends active rfl ShortNumbers.collateralCount fault fun _ => .arithmetic
  · rename_i present
    obtain ⟨collaterals, accruals⟩ : j < s.collaterals.length ∧ j < s.accruals.length := by omega
    refine (slotAt_ends collaterals).bind fun slot at_index => ?_
    cases slot with
    | none =>
      have fault : s.BalanceFault (.margin (.config (.emptyCollateral j))) :=
        .empty member nonzero at_index
      exact slot_ends active rfl ShortNumbers.collateralCount fault fun _ => .arithmetic
    | some terms => exact (slotAt_ends accruals).bind fun accrual _ => trivial

theorem priceOf_ends {c : CollateralSlot} (member : (j, raw) ∈ s.balances) (nonzero : raw ≠ 0)
    (found : s.collateralAt j = .ok c) :
    Ends s.BalanceFault (fun price => s.ShortNumbers → Short price) (s.priceOf c.terms.feed) := by
  unfold priceOf
  split
  · rename_i entry listed
    exact fun numbers => numbers.prices entry (PriceTable.mem_of_get? listed)
  · rename_i absent
    refine Ends.fail (.unpriced member nonzero found absent) fun refused => absurd ?_ refused
    simp [Fault.cited, MarginFault.cited]

end Snapshot
end Solvency
