import Mathlib.Order.Bounds.Basic
import Solvency.Proofs.Comparison

/-! Collateral beside what it is worth. Interest, price and weight are rounded down one after the
other, for deposits and for debts, so that the value is never above the worth; each rounding adds to
what the ones before it have left out. -/
namespace Solvency

namespace Exact

/-- A balance with interest, at its price, and weighted if it is a deposit, without any rounding. -/
def balanceWorth (c : CollateralSlot) (price raw : Int) : ℚ :=
  if 0 < raw then raw * c.accrual.supply * price / Fixed.scale ^ 2 * (c.terms.weight / oneWhole)
  else raw * c.accrual.borrow * price / Fixed.scale ^ 2

/-- The balances that are valued. -/
def holdings (s : Snapshot) : List (Nat × Int) := s.balances.filter fun (_, raw) => raw ≠ 0

def collateralWorth (s : Snapshot) : ℚ :=
  ((holdings s).map fun (j, raw) => balanceWorth (asset s j) (price s j) raw).sum

/-- What rounding may leave out of the worth of all balances. -/
def collateralRest (s : Snapshot) : ℚ :=
  ((holdings s).map fun (j, _) => (price s j / Fixed.scale + 2 : ℚ)).sum

/-- The integer is at most the amount, and short of it by no more than the rest. -/
structure RoundedDown (amount rest : ℚ) (n : Int) : Prop where
  le : n ≤ amount
  near : amount ≤ n + rest

theorem roundedDown_floor (amount : ℚ) : RoundedDown amount 1 ⌊amount⌋ where
  le := Int.floor_le amount
  near := (Int.lt_floor_add_one amount).le

theorem RoundedDown.mono {amount rest rest' : ℚ} {n : Int} (down : RoundedDown amount rest n)
    (le : rest ≤ rest') : RoundedDown amount rest' n where
  le := down.le
  near := by linarith [down.near]

/-- A further factor scales the rest, and its own rounding adds one. -/
theorem RoundedDown.floor_mul {amount rest factor : ℚ} {n : Int} (down : RoundedDown amount rest n)
    (nonneg : 0 ≤ factor) : RoundedDown (amount * factor) (rest * factor + 1) ⌊n * factor⌋ where
  le := calc (⌊n * factor⌋ : ℚ)
      ≤ n * factor := Int.floor_le _
    _ ≤ amount * factor := mul_le_mul_of_nonneg_right down.le nonneg
  near := calc amount * factor
      ≤ (n + rest) * factor := mul_le_mul_of_nonneg_right down.near nonneg
    _ = n * factor + rest * factor := add_mul _ _ _
    _ ≤ ⌊n * factor⌋ + (rest * factor + 1) := by linarith [Int.lt_floor_add_one (n * factor)]

theorem RoundedDown.sum {α : Type} {amount rest : α → ℚ} {n : α → Int} {xs : List α}
    (down : ∀ x ∈ xs, RoundedDown (amount x) (rest x) (n x)) :
    RoundedDown (xs.map amount).sum (xs.map rest).sum (xs.map n).sum := by
  induction xs with
  | nil => exact ⟨by simp, by simp⟩
  | cons x others ih =>
    obtain ⟨first, later⟩ := List.forall_mem_cons.mp down
    have sums := ih later
    simp only [List.map_cons, List.sum_cons]
    constructor
    · rw [Int.cast_add]
      linarith [first.le, sums.le]
    · rw [Int.cast_add]
      linarith [first.near, sums.near]

section Balances

variable {c : CollateralSlot} {unit raw : Int}

theorem unit_nonneg (priced : 0 ≤ unit) : (0 : ℚ) ≤ unit / Fixed.scale :=
  div_nonneg (by exact_mod_cast priced) (by exact_mod_cast Fixed.scale_pos.le)

/-- The value of a balance before it is weighted. -/
theorem priced_roundedDown (factor raw : Int) (priced : 0 ≤ unit) :
    RoundedDown (raw * factor * unit / Fixed.scale ^ 2) (unit / Fixed.scale + 1)
      ⌊(⌊(raw * factor : ℚ) / Fixed.scale⌋ * unit : ℚ) / Fixed.scale⌋ := by
  have down :=
    (roundedDown_floor ((raw * factor : ℚ) / Fixed.scale)).floor_mul (unit_nonneg priced)
  have amount : (raw * factor / Fixed.scale * (unit / Fixed.scale) : ℚ) =
      raw * factor * unit / Fixed.scale ^ 2 := by ring
  rwa [amount, one_mul, ← mul_div_assoc] at down

theorem valued_roundedDown_deposit (supply : 0 ≤ c.accrual.supply) (priced : 0 ≤ unit)
    (deposit : 0 < raw) (weight : 0 < c.terms.weight ∧ c.terms.weight ≤ oneWhole) :
    RoundedDown (balanceWorth c unit raw) (unit / Fixed.scale + 2) (valued c unit raw) := by
  have whole : (0 : ℚ) < oneWhole := by norm_num [oneWhole]
  have share : (0 : ℚ) ≤ c.terms.weight / oneWhole :=
    div_nonneg (by exact_mod_cast weight.1.le) whole.le
  have part : (c.terms.weight / oneWhole : ℚ) ≤ 1 :=
    (div_le_one whole).mpr (by exact_mod_cast weight.2)
  have down := (priced_roundedDown c.accrual.supply raw priced).floor_mul share
  rw [(valued_deposit supply priced deposit).2, accrued_deposit _ deposit, balanceWorth,
    if_pos deposit, mul_div_assoc _ (c.terms.weight : ℚ)]
  refine down.mono ?_
  have shared := mul_le_of_le_one_right (add_nonneg (unit_nonneg priced) zero_le_one) part
  linarith

/-- A debt is not weighted. -/
theorem valued_roundedDown_debt (borrow : 0 ≤ c.accrual.borrow) (priced : 0 ≤ unit)
    (debt : raw ≤ 0) :
    RoundedDown (balanceWorth c unit raw) (unit / Fixed.scale + 2) (valued c unit raw) := by
  have down := priced_roundedDown c.accrual.borrow raw priced
  rw [(valued_debt borrow priced debt).2, accrued_debt _ debt, balanceWorth, if_neg (by omega)]
  exact down.mono (by linarith)

theorem valued_roundedDown {s : Snapshot} {x : Nat × Int} (accepted : s.violations = [])
    (member : x ∈ s.balances) (found : Valued s x.1) :
    RoundedDown (balanceWorth (asset s x.1) (price s x.1) x.2) (price s x.1 / Fixed.scale + 2)
      (valued (asset s x.1) (price s x.1) x.2) := by
  obtain ⟨_, supply, borrow, priced⟩ := found.sound accepted member
  rcases lt_or_ge 0 x.2 with deposit | debt
  · have weight := Snapshot.weight_of_accepted accepted member found.found
    exact valued_roundedDown_deposit supply priced deposit weight
  · exact valued_roundedDown_debt borrow priced debt

end Balances

end Exact

/-- Rounding down finds the greatest whole number that fits. -/
theorem Fixed.floor_isGreatest {x r : Int} (done : Fixed.floor x = .ok r) :
    IsGreatest {n : Int | n * Fixed.scale ≤ x} r := by
  obtain ⟨_, rfl⟩ := floor_eq_ok.mp done
  have below : {n : Int | n * Fixed.scale ≤ x} = Set.Iic ⌊(x : ℚ) / Fixed.scale⌋ := by
    ext n
    rw [Set.mem_Iic, Int.le_floor, le_div_iff₀ (by exact_mod_cast Fixed.scale_pos)]
    exact_mod_cast Iff.rfl
  rw [below]
  exact isGreatest_Iic

namespace Snapshot

/-- The weighted value is at most what the balances are worth. For each of them it is short of that by
no more than two in its own last place and the price of one in the last place of the balance. Weighted
collateral is the whole part of the value. -/
theorem collateral_understated (s : Snapshot) (units : Int) (accepted : s.violations = [])
    (valued : s.collateral = .ok units) :
    (∀ x ∈ Exact.holdings s, Exact.Valued s x.1) ∧
    ∃ total, s.totalValue true = .ok total ∧ total ≤ Exact.collateralWorth s ∧
      Exact.collateralWorth s - total ≤ Exact.collateralRest s ∧
      IsGreatest {n : Int | n * Fixed.scale ≤ total} units := by
  obtain ⟨total, summed, floored⟩ := bind_eq_ok.mp valued
  obtain ⟨exact, found⟩ := totalValue_eq_ok summed
  have held (x) (member : x ∈ Exact.holdings s) : x ∈ s.balances ∧ Exact.Valued s x.1 := by
    obtain ⟨balance, nonzero⟩ := List.mem_filter.mp member
    exact ⟨balance, found x balance (by simpa using nonzero)⟩
  have down : Exact.RoundedDown (Exact.collateralWorth s) (Exact.collateralRest s) total := by
    rw [exact, ← sum_valued]
    exact Exact.RoundedDown.sum fun x member =>
      Exact.valued_roundedDown accepted (held x member).1 (held x member).2
  exact ⟨fun x member => (held x member).2, total, summed, down.le,
    by linarith [down.near], Fixed.floor_isGreatest floored⟩

/-- A deposit and a debt whose interest, price and weight are all rounded. -/
def uneven : Snapshot where
  account := { balances := [99333333333333, 0, -700000000007] }
  collaterals := [some ⟨"sol", "SOL", 801, 0⟩, some ⟨"usd", "USD", 1000, 0⟩,
    some ⟨"eth", "ETH", 900, 0⟩]
  accruals := [{ supply := 1000000000001 }, {}, { borrow := 1010000000003 }]
  prices := ⟨[⟨"ETH", 31300000000007⟩, ⟨"SOL", 2700000000003⟩]⟩
  collateralCount := 3

theorem collateral_understated_uneven :
    uneven.violations = [] ∧ uneven.collateral = .ok 192 ∧
    ∃ total, uneven.totalValue true = .ok total ∧ total ≤ Exact.collateralWorth uneven ∧
      Exact.collateralWorth uneven - total ≤ Exact.collateralRest uneven ∧
      IsGreatest {n : Int | n * Fixed.scale ≤ total} 192 := by
  have accepted : uneven.violations = [] := by decide
  have valued : uneven.collateral = .ok 192 := by cbv
  exact ⟨accepted, valued, (collateral_understated uneven 192 accepted valued).2⟩

end Snapshot
end Solvency
