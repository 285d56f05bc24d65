import Mathlib.Algebra.Order.BigOperators.Group.List
import Solvency.Proofs.Fraction

/-! The account value beside what the account is worth. Rounding down the units of a long position,
and the funding of any position, leaves part of its worth out. The units of a short position are owed:
rounding them down is a gain, and only that can put the account value above the worth. -/
namespace Solvency

namespace Exact

/-- The quote value of a position's units at the mark price; those of a short one are owed. -/
def unitsWorth (p : Position) (mark : Int) : ℚ := p.size * mark / Fixed.scale

def fundingWorth (p : Position) (m : MarketSlot) : ℚ :=
  p.size * (p.funding - m.funding) / 10 ^ m.terms.decimals

/-- What a position adds to an account, without any rounding. -/
def worth (p : Position) (m : MarketSlot) : ℚ :=
  p.realized +
    if p.size = 0 then 0 else p.quoteTotal + unitsWorth p m.mark + fundingWorth p m

def accountWorth (s : Snapshot) (collateral : Int) : ℚ :=
  collateral + (s.positions.map fun (i, p) => worth p (market s i)).sum

/-- What rounding leaves out of the worth of a position. -/
def omitted (p : Position) (m : MarketSlot) : ℚ :=
  (if 0 < p.size then Int.fract (unitsWorth p m.mark) else 0) +
    if p.size = 0 then 0 else Int.fract (fundingWorth p m)

/-- What rounding leaves out of the debt of a short position. -/
def forgiven (p : Position) (mark : Int) : ℚ :=
  if p.size < 0 then Int.fract (-unitsWorth p mark) else 0

variable {p : Position} {m : MarketSlot} {mark : Int}

theorem omitted_nonneg (p : Position) (m : MarketSlot) : 0 ≤ omitted p m := by
  have units := Int.fract_nonneg (unitsWorth p m.mark)
  have funding := Int.fract_nonneg (fundingWorth p m)
  unfold omitted
  split_ifs <;> linarith

theorem forgiven_le_one (mark : Int) (short : p.size < 0) : forgiven p mark ≤ 1 := by
  rw [forgiven, if_pos short]
  exact (Int.fract_lt_one _).le

theorem forgiven_eq_zero (whole : p.size < 0 → Fixed.scale ∣ p.size * mark) :
    forgiven p mark = 0 := by
  unfold forgiven
  split
  · rename_i short
    obtain ⟨units, product⟩ := whole short
    have scale : (Fixed.scale : ℚ) ≠ 0 := by exact_mod_cast Fixed.scale_pos.ne'
    have exact : unitsWorth p mark = units := by
      rw [unitsWorth, div_eq_iff scale]
      exact_mod_cast product.trans (mul_comm _ _)
    rw [exact, ← Int.cast_neg, Int.fract_intCast]
  · rfl

/-- Each rounding of a gain is made up by what it leaves out. -/
theorem gain_add_omitted (p : Position) (m : MarketSlot) :
    gain p m + omitted p m = worth p m + forgiven p m.mark := by
  have funded : (funding p m : ℚ) = fundingWorth p m - Int.fract (fundingWorth p m) :=
    (Int.self_sub_fract _).symm
  rcases lt_trichotomy p.size 0 with short | flat | long
  · have owed : (|p.size| * m.mark : ℚ) / Fixed.scale = -unitsWorth p m.mark := by
      rw [abs_of_neg short, unitsWorth, Int.cast_neg]
      ring
    have closed : (profit p m.mark : ℚ) =
        p.quoteTotal + unitsWorth p m.mark + Int.fract (-unitsWorth p m.mark) := by
      rw [profit, if_neg (by omega), owed, Int.cast_sub, ← Int.self_sub_fract]
      ring
    rw [gain, worth, omitted, forgiven, if_neg short.ne, if_neg short.ne, if_neg short.ne,
      if_neg (by omega), if_pos short]
    push_cast
    rw [closed, funded]
    ring
  · simp [gain, worth, omitted, forgiven, flat]
  · have closed : (profit p m.mark : ℚ) =
        p.quoteTotal + unitsWorth p m.mark - Int.fract (unitsWorth p m.mark) := by
      rw [profit, if_pos long, ← unitsWorth, Int.cast_add, ← Int.self_sub_fract]
      ring
    rw [gain, worth, omitted, forgiven, if_neg long.ne', if_neg long.ne', if_neg long.ne',
      if_pos long, if_neg (by omega)]
    push_cast
    rw [closed, funded]
    ring

/-- What rounding leaves out of the worth of all positions. -/
def totalOmitted (s : Snapshot) : ℚ := (s.positions.map fun (i, p) => omitted p (market s i)).sum

/-- What rounding leaves out of the debts of all short positions. -/
def totalForgiven (s : Snapshot) : ℚ :=
  (s.positions.map fun (i, p) => forgiven p (market s i).mark).sum

variable (s : Snapshot)

theorem sum_gain_add_omitted (xs : List (Nat × Position)) :
    (((xs.map fun (i, p) => gain p (market s i)).sum : Int) : ℚ) +
      (xs.map fun (i, p) => omitted p (market s i)).sum =
    (xs.map fun (i, p) => worth p (market s i)).sum +
      (xs.map fun (i, p) => forgiven p (market s i).mark).sum := by
  induction xs with
  | nil => simp
  | cons x rest ih =>
    have first := gain_add_omitted x.2 (market s x.1)
    simp only [List.map_cons, List.sum_cons, Int.cast_add]
    linarith

theorem accountValue_add_omitted (collateral : Int) :
    accountValue s collateral + totalOmitted s = accountWorth s collateral + totalForgiven s := by
  have sums := sum_gain_add_omitted s s.positions
  rw [accountValue, accountWorth, totalOmitted, totalForgiven, Int.cast_add]
  linarith

theorem totalOmitted_nonneg : 0 ≤ totalOmitted s := by
  apply List.sum_nonneg
  intro rest member
  obtain ⟨x, _, rfl⟩ := List.mem_map.mp member
  exact omitted_nonneg x.2 (market s x.1)

variable {s}

theorem totalForgiven_eq_zero (whole : ∀ x ∈ s.positions, x.2.size < 0 →
    Fixed.scale ∣ x.2.size * (market s x.1).mark) : totalForgiven s = 0 := by
  apply List.sum_eq_zero
  intro rest member
  obtain ⟨x, listed, rfl⟩ := List.mem_map.mp member
  exact forgiven_eq_zero (whole x listed)

theorem sum_forgiven_le (s : Snapshot) (xs : List (Nat × Position)) :
    (xs.map fun (i, p) => forgiven p (market s i).mark).sum ≤
      ((xs.filter fun x => x.2.size < 0).length : ℚ) := by
  induction xs with
  | nil => simp
  | cons x rest ih =>
    rw [List.map_cons, List.sum_cons]
    by_cases short : x.2.size < 0
    · have one := forgiven_le_one (market s x.1).mark short
      rw [List.filter_cons_of_pos (by simpa using short), List.length_cons]
      push_cast
      linarith
    · have none : forgiven x.2 (market s x.1).mark = 0 := if_neg short
      rw [List.filter_cons_of_neg (by simpa using short)]
      linarith

end Exact

namespace Snapshot

/-- The account value is at most what the account is worth, unless its short positions are forgiven
more than rounding leaves out elsewhere. That takes a short position whose units are worth a fraction,
and never comes to more than one quote unit for each short position. -/
theorem accountValue_le_worth_iff (s : Snapshot) (collateral : Int) (wanted : FactorChoice)
    (t : PerpTotals) (done : s.perpTotals collateral wanted = .ok t) :
    (∀ x ∈ s.positions, Exact.Marked s x.1 x.2) ∧
    ((t.accountValue : ℚ) ≤ Exact.accountWorth s collateral ↔
      Exact.totalForgiven s ≤ Exact.totalOmitted s) ∧
    ((∀ x ∈ s.positions, x.2.size < 0 → Fixed.scale ∣ x.2.size * (Exact.market s x.1).mark) →
      (t.accountValue : ℚ) ≤ Exact.accountWorth s collateral) ∧
    (t.accountValue : ℚ) ≤ Exact.accountWorth s collateral +
      (s.positions.filter fun x => x.2.size < 0).length := by
  have value : t.accountValue = Exact.accountValue s collateral := by
    rw [perpTotals_eq_ok done]
    rfl
  have rounded := Exact.accountValue_add_omitted s collateral
  have omitted := Exact.totalOmitted_nonneg s
  have forgiven : Exact.totalForgiven s ≤ _ := Exact.sum_forgiven_le s s.positions
  rw [value]
  refine ⟨marked_of_perpTotals done, ?_, ?_, ?_⟩
  · constructor <;> intro le <;> linarith
  · intro whole
    have nothing := Exact.totalForgiven_eq_zero whole
    linarith
  · linarith

/-- The short position of the sample account has units worth a whole number, so that nothing is
forgiven; what is left out of the others leaves the account at 99 of 100.4. -/
theorem accountValue_le_worth_iff_sample :
    (∀ x ∈ sample.positions, x.2.size < 0 →
      Fixed.scale ∣ x.2.size * (Exact.market sample x.1).mark) ∧
    ∃ t, sample.perpTotals 60 .both = .ok t ∧ t.accountValue = 99 ∧
      (t.accountValue : ℚ) ≤ Exact.accountWorth sample 60 := by
  have whole : ∀ x ∈ sample.positions, x.2.size < 0 →
      Fixed.scale ∣ x.2.size * (Exact.market sample x.1).mark := by decide
  have done : sample.perpTotals 60 .both = .ok {
      accountValue := 99, hasExposure := true, realized := 20
      initialFactors := [101, 60, 15], maintenanceFactors := [50, 30, 7]
      filledNotionals := [267, 803, 21], heldNotionals := [100, 321, 0] } := by cbv
  exact ⟨whole, _, done, rfl, (accountValue_le_worth_iff sample 60 .both _ done).2.2.1 whole⟩

/-- Three units short at half a quote unit each, sold for two. -/
def halves : Snapshot where
  account := { positions := [some { key := 1 :: List.replicate 31 0, size := -3, quoteTotal := 2 }] }
  markets := [some ⟨"A", 0, 100⟩]
  marks := [500000000000]
  fundings := [0]
  marketCount := 1

/-- The debt of one and a half is rounded down, which overstates the account. -/
theorem not_accountValue_le_worth :
    ¬ ∀ (s : Snapshot) (collateral : Int) (wanted : FactorChoice) (t : PerpTotals),
      s.perpTotals collateral wanted = .ok t →
      (t.accountValue : ℚ) ≤ Exact.accountWorth s collateral := by
  intro understated
  have done : halves.perpTotals 0 .initial = .ok {
      accountValue := 1, hasExposure := true, initialFactors := [100]
      filledNotionals := [2], heldNotionals := [2] } := by cbv
  have worth : Exact.accountWorth halves 0 = 1 / 2 := by
    have positions : halves.positions =
      [(0, { key := 1 :: List.replicate 31 0, size := -3, quoteTotal := 2 })] := rfl
    have market : Exact.market halves 0 = ⟨⟨"A", 0, 100⟩, 500000000000, 0⟩ := rfl
    norm_num [Exact.accountWorth, Exact.worth, Exact.unitsWorth, Exact.fundingWorth, positions,
      market, Fixed.scale]
  have le := understated halves 0 .initial _ done
  rw [worth] at le
  norm_num at le

end Snapshot
end Solvency
