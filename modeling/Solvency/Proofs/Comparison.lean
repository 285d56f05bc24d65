import Solvency.Proofs.Collateral
import Solvency.Proofs.Levels

/-! Two accounts in one slot. The one that holds at least as much there, at terms that are no
harsher, holds what is worth at least as much, and no more is asked of it. -/
namespace Solvency

/-- The second position has realized and holds at least as much, and is the same otherwise. -/
structure Position.Improved (p q : Position) : Prop where
  same : q = { p with quoteTotal := q.quoteTotal, realized := q.realized }
  quoteTotal : p.quoteTotal ≤ q.quoteTotal
  realized : p.realized ≤ q.realized

/-- The second market is the same but for a factor that may be lower. -/
structure MarketSlot.Relaxed (m n : MarketSlot) : Prop where
  decimals : n.terms.decimals = m.terms.decimals
  mark : n.mark = m.mark
  funding : n.funding = m.funding
  factor : n.terms.baseFactor ≤ m.terms.baseFactor

/-- The second asset has no lower weight, earns no less and costs no more. -/
structure CollateralSlot.Relaxed (c d : CollateralSlot) : Prop where
  weight : c.terms.weight ≤ d.terms.weight
  supply : c.accrual.supply ≤ d.accrual.supply
  borrow : d.accrual.borrow ≤ c.accrual.borrow

namespace Exact

variable {s t : Snapshot}

/-- The position of the second account is at least as good as that of the first. A lower factor is
better only where the notional that it is taken of cannot be negative. -/
structure PositionDominated (s t : Snapshot) (x y : Nat × Position) : Prop where
  index : y.1 = x.1
  improved : x.2.Improved y.2
  relaxed : (market s x.1).Relaxed (market t x.1)
  signed : (market t x.1).terms.baseFactor = (market s x.1).terms.baseFactor ∨
    0 ≤ (market s x.1).mark

/-- The balance of the second account is at least as good as that of the first. Terms and prices
count only where the balances are of one sign. -/
structure BalanceDominated (s t : Snapshot) (x y : Nat × Int) : Prop where
  index : y.1 = x.1
  raw : x.2 ≤ y.2
  relaxed : 0 < x.2 ∨ y.2 < 0 → (asset s x.1).Relaxed (asset t x.1)
  deposit : 0 < x.2 → price s x.1 ≤ price t x.1
  debt : y.2 < 0 → price t x.1 ≤ price s x.1

/-- The terms and the price of an asset have the signs that validation asks for. -/
structure Sound (s : Snapshot) (j : Nat) : Prop where
  weight : 0 < (asset s j).terms.weight
  supply : 0 ≤ (asset s j).accrual.supply
  borrow : 0 ≤ (asset s j).accrual.borrow
  price : 0 ≤ price s j

theorem Priced.valued {j : Nat} (priced : Priced s j) : Valued s j := ⟨priced.found, priced.price⟩

theorem Valued.sound {j : Nat} {raw : Int} (valued : Valued s j) (accepted : s.violations = [])
    (member : (j, raw) ∈ s.balances) : Sound s j where
  weight := (Snapshot.weight_of_accepted accepted member valued.found).1
  supply := (Snapshot.multipliers_of_accepted accepted member valued.found).1
  borrow := (Snapshot.multipliers_of_accepted accepted member valued.found).2
  price := (Snapshot.price_of_accepted accepted valued.price).le

section Balances

variable {a : Accrual} {c : CollateralSlot} {unit raw : Int} {x y : Nat × Int}

theorem accrued_deposit (a : Accrual) (deposit : 0 < raw) :
    accrued a raw = ⌊(raw * a.supply : ℚ) / Fixed.scale⌋ := by rw [accrued, if_pos deposit]

theorem accrued_debt (a : Accrual) (debt : raw ≤ 0) :
    accrued a raw = ⌊(raw * a.borrow : ℚ) / Fixed.scale⌋ := by rw [accrued, if_neg (by omega)]

theorem accrued_nonneg (supply : 0 ≤ a.supply) (deposit : 0 < raw) : 0 ≤ accrued a raw := by
  rw [accrued_deposit a deposit]
  exact floor_product_nonneg Fixed.scale_pos.le (mul_nonneg deposit.le supply)

theorem accrued_nonpos (borrow : 0 ≤ a.borrow) (debt : raw ≤ 0) : accrued a raw ≤ 0 := by
  rw [accrued_debt a debt]
  exact floor_product_nonpos Fixed.scale_pos.le (mul_nonpos_of_nonpos_of_nonneg debt borrow)

theorem valued_deposit (supply : 0 ≤ c.accrual.supply) (priced : 0 ≤ unit) (deposit : 0 < raw) :
    0 ≤ ⌊(accrued c.accrual raw * unit : ℚ) / Fixed.scale⌋ ∧ valued c unit raw =
      ⌊(⌊(accrued c.accrual raw * unit : ℚ) / Fixed.scale⌋ * c.terms.weight : ℚ) / oneWhole⌋ := by
  have nonneg : 0 ≤ ⌊(accrued c.accrual raw * unit : ℚ) / Fixed.scale⌋ :=
    floor_product_nonneg Fixed.scale_pos.le (mul_nonneg (accrued_nonneg supply deposit) priced)
  exact ⟨nonneg, if_pos nonneg⟩

/-- A debt is not weighted; one that comes to nothing is worth nothing either way. -/
theorem valued_debt (borrow : 0 ≤ c.accrual.borrow) (priced : 0 ≤ unit) (debt : raw ≤ 0) :
    ⌊(accrued c.accrual raw * unit : ℚ) / Fixed.scale⌋ ≤ 0 ∧
    valued c unit raw = ⌊(accrued c.accrual raw * unit : ℚ) / Fixed.scale⌋ := by
  have nonpos : ⌊(accrued c.accrual raw * unit : ℚ) / Fixed.scale⌋ ≤ 0 :=
    floor_product_nonpos Fixed.scale_pos.le
      (mul_nonpos_of_nonpos_of_nonneg (accrued_nonpos borrow debt) priced)
  refine ⟨nonpos, ?_⟩
  unfold valued
  rcases nonpos.eq_or_lt with zero | negative
  · simp [zero]
  · exact if_neg (by omega)

theorem valued_nonneg {j : Nat} (sound : Sound s j) (deposit : 0 < raw) :
    0 ≤ valued (asset s j) (price s j) raw := by
  obtain ⟨nonneg, value⟩ := valued_deposit sound.supply sound.price deposit
  rw [value]
  exact floor_product_nonneg (by decide) (mul_nonneg nonneg sound.weight.le)

theorem valued_nonpos {j : Nat} (sound : Sound s j) (debt : raw ≤ 0) :
    valued (asset s j) (price s j) raw ≤ 0 := by
  obtain ⟨nonpos, value⟩ := valued_debt sound.borrow sound.price debt
  exact value.trans_le nonpos

theorem valued_mono_deposit (dominated : BalanceDominated s t x y) (deposit : 0 < x.2)
    (left : Sound s x.1) (right : Sound t x.1) :
    valued (asset s x.1) (price s x.1) x.2 ≤ valued (asset t x.1) (price t x.1) y.2 := by
  have relaxed := dominated.relaxed (.inl deposit)
  have deposit' : 0 < y.2 := deposit.trans_le dominated.raw
  have grown : accrued (asset s x.1).accrual x.2 ≤ accrued (asset t x.1).accrual y.2 := by
    rw [accrued_deposit _ deposit, accrued_deposit _ deposit']
    exact floor_product_mono Fixed.scale_pos.le
      (mul_le_mul dominated.raw relaxed.supply left.supply deposit'.le)
  have worth : ⌊(accrued (asset s x.1).accrual x.2 * price s x.1 : ℚ) / Fixed.scale⌋ ≤
      ⌊(accrued (asset t x.1).accrual y.2 * price t x.1 : ℚ) / Fixed.scale⌋ :=
    floor_product_mono Fixed.scale_pos.le
      (mul_le_mul grown (dominated.deposit deposit) left.price
        (accrued_nonneg right.supply deposit'))
  obtain ⟨_, value⟩ := valued_deposit left.supply left.price deposit
  obtain ⟨nonneg, value'⟩ := valued_deposit right.supply right.price deposit'
  rw [value, value']
  exact floor_product_mono (by decide) (mul_le_mul worth relaxed.weight left.weight.le nonneg)

theorem accrued_mono_debt (dominated : BalanceDominated s t x y) (debt : y.2 < 0)
    (right : Sound t x.1) :
    ⌊(x.2 * (asset s x.1).accrual.borrow : ℚ) / Fixed.scale⌋ ≤
      ⌊(y.2 * (asset t x.1).accrual.borrow : ℚ) / Fixed.scale⌋ := by
  have relaxed := dominated.relaxed (.inr debt)
  have debt' : x.2 < 0 := dominated.raw.trans_lt debt
  apply floor_product_mono Fixed.scale_pos.le
  calc x.2 * (asset s x.1).accrual.borrow
      ≤ x.2 * (asset t x.1).accrual.borrow := mul_le_mul_of_nonpos_left relaxed.borrow debt'.le
    _ ≤ y.2 * (asset t x.1).accrual.borrow := mul_le_mul_of_nonneg_right dominated.raw right.borrow

theorem valued_mono_debt (dominated : BalanceDominated s t x y) (debt : y.2 < 0)
    (left : Sound s x.1) (right : Sound t x.1) :
    valued (asset s x.1) (price s x.1) x.2 ≤ valued (asset t x.1) (price t x.1) y.2 := by
  have debt' : x.2 < 0 := dominated.raw.trans_lt debt
  have grown : accrued (asset s x.1).accrual x.2 ≤ accrued (asset t x.1).accrual y.2 := by
    rw [accrued_debt _ debt'.le, accrued_debt _ debt.le]
    exact accrued_mono_debt dominated debt right
  have owed := accrued_nonpos left.borrow debt'.le
  rw [(valued_debt left.borrow left.price debt'.le).2,
    (valued_debt right.borrow right.price debt.le).2]
  apply floor_product_mono Fixed.scale_pos.le
  calc accrued (asset s x.1).accrual x.2 * price s x.1
      ≤ accrued (asset s x.1).accrual x.2 * price t x.1 :=
        mul_le_mul_of_nonpos_left (dominated.debt debt) owed
    _ ≤ accrued (asset t x.1).accrual y.2 * price t x.1 :=
        mul_le_mul_of_nonneg_right grown right.price

/-- A balance that crosses zero leaves a value of at most zero for one of at least zero; on one side
of zero every rounding goes the same way. -/
theorem valued_mono (dominated : BalanceDominated s t x y) (left : x.2 ≠ 0 → Sound s x.1)
    (right : y.2 ≠ 0 → Sound t x.1) :
    valued (asset s x.1) (price s x.1) x.2 ≤ valued (asset t x.1) (price t x.1) y.2 := by
  have raw := dominated.raw
  rcases lt_or_ge 0 x.2 with deposit | owed
  · exact valued_mono_deposit dominated deposit (left (by omega)) (right (by omega))
  rcases lt_or_ge y.2 0 with debt | covered
  · exact valued_mono_debt dominated debt (left (by omega)) (right (by omega))
  · have before : valued (asset s x.1) (price s x.1) x.2 ≤ 0 := by
      rcases owed.eq_or_lt with zero | negative
      · rw [zero, valued_zero]
      · exact valued_nonpos (left (by omega)) owed
    have after : 0 ≤ valued (asset t x.1) (price t x.1) y.2 := by
      rcases covered.eq_or_lt with zero | positive
      · rw [← zero, valued_zero]
      · exact valued_nonneg (right (by omega)) positive
    exact before.trans after

theorem borrowed_eq (s : Snapshot) (profit : Int) (j : Nat) (raw : Int) : borrowed s profit j raw =
    max 0 ⌈(price s j * (-balance s profit j raw : Int) : ℚ) / (Fixed.scale ^ 2 : Int)⌉ := by
  rw [borrowed, Int.cast_neg, Int.cast_pow]

/-- The worse balance is the larger debt, after no more profit has settled. Profit that covers the
better one leaves it without exposure, whatever the prices are. -/
theorem borrowed_mono {profit profit' : Int} (dominated : BalanceDominated s t x y)
    (debt : y.2 < 0) (right : Sound t x.1) (settled : profit ≤ profit') :
    borrowed t profit' x.1 y.2 ≤ borrowed s profit x.1 x.2 := by
  have square : 0 ≤ Fixed.scale ^ 2 := sq_nonneg _
  have owed : balance s profit x.1 x.2 ≤ balance t profit' x.1 y.2 := by
    have grown := accrued_mono_debt dominated debt right
    unfold balance
    split
    · have scaled := mul_le_mul_of_nonneg_right settled Fixed.scale_pos.le
      omega
    · omega
  rw [borrowed_eq, borrowed_eq]
  refine max_le (le_max_left _ _) ?_
  rcases le_total 0 (balance t profit' x.1 y.2) with covered | exposed
  · refine le_max_of_le_left ?_
    have product : price t x.1 * -balance t profit' x.1 y.2 ≤ 0 * 0 :=
      mul_nonpos_of_nonneg_of_nonpos right.price (by omega)
    simpa using ceil_product_mono square product
  · refine le_max_of_le_right (ceil_product_mono square ?_)
    have priced := dominated.debt debt
    exact mul_le_mul priced (by omega) (by omega) (right.price.trans priced)

end Balances

section Positions

variable {p q : Position} {m n : MarketSlot} {x y : Nat × Position}

theorem gain_mono (improved : p.Improved q) (relaxed : m.Relaxed n) : gain p m ≤ gain q n := by
  obtain ⟨same, quoteTotal, realized⟩ := improved
  rw [same]
  simp only [gain, profit, funding, relaxed.mark, relaxed.funding, relaxed.decimals]
  split_ifs <;> omega

theorem notional_same (kind : FractionKind) (improved : p.Improved q) (mark : Int) :
    notional kind q mark = notional kind p mark := by
  rw [improved.same]
  cases kind <;> rfl

theorem marketFactor_mono (kind : FractionKind) {base base' : Int} (le : base ≤ base') :
    marketFactor kind base ≤ marketFactor kind base' := by
  cases kind <;> simp only [marketFactor] <;> omega

/-- A lower factor asks for less of a notional that is not negative. -/
theorem weighed_mono (kind : FractionKind) (dominated : PositionDominated s t x y)
    (bids : 0 ≤ x.2.bids) (asks : 0 ≤ x.2.asks) :
    marketFactor kind (market t y.1).terms.baseFactor * notional kind y.2 (market t y.1).mark ≤
    marketFactor kind (market s x.1).terms.baseFactor * notional kind x.2 (market s x.1).mark := by
  rw [dominated.index, dominated.relaxed.mark, notional_same kind dominated.improved]
  rcases dominated.signed with same | nonneg
  · rw [same]
  · have exposure : 0 ≤ notional kind x.2 (market s x.1).mark :=
      notional_nonneg kind bids asks nonneg
    exact mul_le_mul_of_nonneg_right (marketFactor_mono kind dominated.relaxed.factor) exposure

end Positions

end Exact
end Solvency
