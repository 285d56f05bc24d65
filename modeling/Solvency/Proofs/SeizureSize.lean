import Solvency.Margin.Seizure
import Solvency.Proofs.Accepted
import Solvency.Proofs.Fraction

/-! The size of a seizure. Fees are rounded up and the margin that a unit frees is rounded down, so the
least quantity that covers the shortfall at the rounded numbers also covers it at the exact ones. -/
namespace Solvency

namespace Exact

/-- What an account lacks to a requirement; negative collateral counts as none. -/
def shortfall (requirement collateral value : Int) : Int :=
  requirement - oneWhole * min (max collateral 0) value

/-- The margin that seizing one unit frees, at its rounded fees. -/
def relief (u : SeizedUnit) : Int :=
  ⌊(u.price * (u.factor * Fixed.scale - u.fees) : ℚ) / Fixed.scale⌋

/-- The factor that the fees of both sides cost, before any rounding. -/
def fees (target quote : CollateralTerms) : ℚ :=
  quote.weight * (oneWhole + target.fee) / (oneWhole - quote.fee) - oneWhole

/-- The quantities that cover a shortfall at the relief of a unit. -/
def sufficient (u : SeizedUnit) (shortfall : Int) : Set Int :=
  {n | 0 ≤ n ∧ shortfall * Fixed.scale ≤ n * relief u}

/-- A value with what is added to it for execution, in permille. -/
def executed (value : Int) (fudge : Option Int) : Int :=
  fudge.elim value fun f => ⌈(value * f : ℚ) / oneWhole⌉

end Exact

/-- Rounding a quotient up finds the least multiple of the divisor that reaches the dividend. -/
theorem ceil_div_le_iff {a d n : Int} (positive : 0 < d) : ⌈(a / d : ℚ)⌉ ≤ n ↔ a ≤ n * d := by
  rw [Int.ceil_le, div_le_iff₀ (by exact_mod_cast positive)]
  exact_mod_cast Iff.rfl

theorem isLeast_ceil_div {a d : Int} (positive : 0 < d) :
    IsLeast {n : Int | a ≤ n * d} ⌈(a / d : ℚ)⌉ :=
  ⟨(ceil_div_le_iff positive).mp le_rfl, fun _ covers => (ceil_div_le_iff positive).mpr covers⟩

/-- The fee factor is never understated. -/
theorem fees_le_of_feeFactor {target quote : CollateralTerms} {r : Int}
    (done : feeFactor target quote = .ok r) : Exact.fees target quote ≤ r / Fixed.scale := by
  simp only [feeFactor, bind_eq_ok, Fixed.ofInt_eq_ok, Width.add_eq_ok, Width.mul_eq_ok,
    Width.sub_eq_ok, Width.ceilDiv_eq_ok] at done
  obtain ⟨_, ⟨_, rfl⟩, _, ⟨_, rfl⟩, _, ⟨_, rfl⟩, _, ⟨_, rfl⟩, _, ⟨_, _, rfl⟩, _, ⟨_, rfl⟩, _, rfl⟩ := done
  have scale : (0 : ℚ) < Fixed.scale := by exact_mod_cast Fixed.scale_pos
  have rounded := Int.le_ceil (((quote.weight * Fixed.scale * (oneWhole + target.fee) : Int) : ℚ) /
    (oneWhole - quote.fee : Int))
  rw [le_div_iff₀ scale]
  push_cast at rounded ⊢
  calc Exact.fees target quote * Fixed.scale
      = quote.weight * Fixed.scale * (oneWhole + target.fee) / (oneWhole - quote.fee) -
          oneWhole * Fixed.scale := by
        unfold Exact.fees
        ring
    _ ≤ _ := by linarith

namespace SeizedUnit

variable {u : SeizedUnit} {requirement collateral value q r : Int}

theorem relief_eq_ok (done : u.relief = .ok r) : r = Exact.relief u ∧ 0 < r := by
  simp only [relief, bind_eq_ok, Fixed.ofInt_eq_ok, Width.sub_eq_ok, Fixed.mul_eq_ok] at done
  obtain ⟨_, ⟨_, rfl⟩, _, ⟨_, rfl⟩, freed, ⟨_, exact⟩, judged⟩ := done
  split at judged
  · exact absurd judged (fail_ne_ok _ _)
  · split at judged
    · exact absurd judged (fail_ne_ok _ _)
    · cases judged
      refine ⟨?_, by omega⟩
      rw [exact, Exact.relief]
      push_cast
      rfl

/-- The quantity is the least that is not negative and covers the shortfall. -/
theorem quantity_isLeast (done : u.quantity requirement collateral value = .ok q) :
    0 < Exact.relief u ∧
      IsLeast (Exact.sufficient u (Exact.shortfall requirement collateral value)) q := by
  simp only [quantity, bind_eq_ok, Width.mul_eq_ok, Width.sub_eq_ok, Width.ceilDiv_eq_ok] at done
  obtain ⟨_, ⟨_, rfl⟩, _, ⟨_, rfl⟩, _, relieved, _, ⟨_, rfl⟩, _, ⟨_, _, rfl⟩, made⟩ := done
  cases made
  obtain ⟨rfl, positive⟩ := relief_eq_ok relieved
  refine ⟨positive, ?_⟩
  have above : Exact.sufficient u (Exact.shortfall requirement collateral value) = Set.Ici
      (max ⌈(((requirement - min (max collateral 0) value * oneWhole) * Fixed.scale : Int) : ℚ) /
        Exact.relief u⌉ 0) := by
    ext n
    rw [Set.mem_Ici, max_le_iff, ceil_div_le_iff positive, Exact.sufficient, Exact.shortfall,
      mul_comm oneWhole]
    exact and_comm
  rw [above]
  exact isLeast_Ici

end SeizedUnit

/-- What covers a shortfall at the rounded relief covers it at the exact fees. -/
theorem Exact.shortfall_le_of_sufficient {u : SeizedUnit} {shortfall q : Int} {fees : ℚ}
    (priced : 0 ≤ u.price) (rounded : fees ≤ u.fees / Fixed.scale)
    (covers : q ∈ sufficient u shortfall) :
    (shortfall : ℚ) ≤ q * u.price / Fixed.scale * (u.factor - fees) := by
  obtain ⟨nonneg, covered⟩ := covers
  have scale : (0 : ℚ) < Fixed.scale := by exact_mod_cast Fixed.scale_pos
  have quantity : (0 : ℚ) ≤ q := by exact_mod_cast nonneg
  have price : (0 : ℚ) ≤ u.price := by exact_mod_cast priced
  have exact_covered : (shortfall * Fixed.scale : ℚ) ≤ q * relief u := by exact_mod_cast covered
  have freed : (relief u : ℚ) ≤ u.price * (u.factor - fees) :=
    calc (relief u : ℚ)
        ≤ (u.price * (u.factor * Fixed.scale - u.fees) : ℚ) / Fixed.scale := Int.floor_le _
      _ = u.price * (u.factor - u.fees / Fixed.scale) := by field_simp
      _ ≤ u.price * (u.factor - fees) := mul_le_mul_of_nonneg_left (by linarith) price
  calc (shortfall : ℚ)
      = shortfall * Fixed.scale / Fixed.scale := by rw [mul_div_cancel_right₀ _ scale.ne']
    _ ≤ q * (u.price * (u.factor - fees)) / Fixed.scale := by
      refine div_le_div_of_nonneg_right (exact_covered.trans ?_) scale.le
      exact mul_le_mul_of_nonneg_left freed quantity
    _ = q * u.price / Fixed.scale * (u.factor - fees) := by ring

namespace Snapshot

variable {s : Snapshot} {asset quote : Int} {fudge : Option Int} {required : Requirements}

/-- The shortfall that a seizure is sized by is the exact one of the account. -/
theorem seizable_isLeast {u : SeizedUnit} {collateral q : Int}
    (done : s.seizable u collateral required = .ok q) :
    0 < Exact.relief u ∧ IsLeast (Exact.sufficient u (Exact.shortfall
      (Exact.requirement s .initial required) collateral (Exact.accountValue s collateral))) q := by
  obtain ⟨perp, folded, done⟩ := bind_eq_ok.mp done
  obtain ⟨spot, borrowed, done⟩ := bind_eq_ok.mp done
  obtain ⟨rfl, rfl⟩ := totals_exact folded borrowed
  obtain ⟨requirement, weighed, done⟩ := bind_eq_ok.mp done
  have serves : FactorChoice.both.serves .initial = true := rfl
  obtain rfl := FractionKind.dot_weighed serves weighed
  exact SeizedUnit.quantity_isLeast done

/-- A seizure is sized with the terms of both assets, the price of the one to seize, and the account's own
weighted collateral; its value is rounded up. -/
theorem seizure_sized {q : Seizure} (done : s.seizure asset quote fudge required = .ok q) :
    ∃ target credited fees price collateral,
      s.activeCollateral asset = .ok target ∧ s.activeCollateral quote = .ok credited ∧
      feeFactor target credited = .ok fees ∧ s.priceOf target.feed = .ok price ∧
      s.collateral = .ok collateral ∧
      s.seizable ⟨Exact.assetFactor .initial required target.weight, price, fees⟩ collateral
        required = .ok q.quantity ∧
      q.value = Exact.executed ⌈(q.quantity * price : ℚ) / Fixed.scale⌉ fudge := by
  obtain ⟨target, seized, done⟩ := bind_eq_ok.mp done
  obtain ⟨credited, received, done⟩ := bind_eq_ok.mp done
  obtain ⟨_, factored, done⟩ := bind_eq_ok.mp done
  obtain ⟨fees, charged, done⟩ := bind_eq_ok.mp done
  obtain ⟨price, priced, done⟩ := bind_eq_ok.mp done
  obtain ⟨collateral, valued, done⟩ := bind_eq_ok.mp done
  obtain ⟨quantity, sized, done⟩ := bind_eq_ok.mp done
  obtain ⟨_, lifted, done⟩ := bind_eq_ok.mp done
  obtain ⟨_, product, done⟩ := bind_eq_ok.mp done
  obtain ⟨value, rounded, done⟩ := bind_eq_ok.mp done
  obtain ⟨_, _, _, rfl⟩ := Factor.spot_eq_ok.mp factored
  obtain rfl := Fixed.mul_lifted lifted product
  obtain ⟨_, rfl⟩ := Fixed.ceil_eq_ok.mp rounded
  refine ⟨target, credited, fees, price, collateral, seized, received, charged, priced, valued, ?_⟩
  cases fudge with
  | none =>
    cases done
    exact ⟨sized, by simp [Exact.executed]⟩
  | some f =>
    obtain ⟨_, raised, done⟩ := bind_eq_ok.mp done
    obtain ⟨_, divided, made⟩ := bind_eq_ok.mp done
    obtain ⟨_, rfl⟩ := Width.mul_eq_ok.mp raised
    obtain ⟨_, _, rfl⟩ := Width.ceilDiv_eq_ok.mp divided
    cases made
    exact ⟨sized, by simp [Exact.executed]⟩

/-- The quantity to seize is the least that covers the shortfall at the margin that a unit frees by its
rounded fees, and it covers the shortfall by the exact fees as well. Its value is the least number of
quote units that is not below its price, and is raised in permille if that is asked for. -/
theorem seizure_least :
    (∀ (u : SeizedUnit) (requirement collateral value q : Int),
      u.quantity requirement collateral value = .ok q → 0 < Exact.relief u ∧
        IsLeast (Exact.sufficient u (Exact.shortfall requirement collateral value)) q) ∧
    ∀ (s : Snapshot) (asset quote : Int) (fudge : Option Int) (required : Requirements) (q : Seizure),
      s.violations = [] → s.seizure asset quote fudge required = .ok q →
      ∃ target credited fees price collateral,
        s.activeCollateral asset = .ok target ∧ s.activeCollateral quote = .ok credited ∧
        feeFactor target credited = .ok fees ∧ s.priceOf target.feed = .ok price ∧
        s.collateral = .ok collateral ∧
        IsLeast (Exact.sufficient ⟨Exact.assetFactor .initial required target.weight, price, fees⟩
          (Exact.shortfall (Exact.requirement s .initial required) collateral
            (Exact.accountValue s collateral))) q.quantity ∧
        (Exact.shortfall (Exact.requirement s .initial required) collateral
          (Exact.accountValue s collateral) : ℚ) ≤ q.quantity * price / Fixed.scale *
            (Exact.assetFactor .initial required target.weight - Exact.fees target credited) ∧
        ∃ value, IsLeast {v : Int | q.quantity * price ≤ v * Fixed.scale} value ∧
          q.value = Exact.executed value fudge := by
  refine ⟨fun u requirement collateral value q => SeizedUnit.quantity_isLeast, ?_⟩
  intro s asset quote fudge required q accepted done
  obtain ⟨target, credited, fees, price, collateral, seized, received, charged, priced, valued,
    sized, executed⟩ := seizure_sized done
  obtain ⟨_, least⟩ := seizable_isLeast sized
  have positive : 0 ≤ price := (price_of_accepted accepted priced).le
  have covered := Exact.shortfall_le_of_sufficient positive (fees_le_of_feeFactor charged) least.1
  have worth := isLeast_ceil_div (a := q.quantity * price) Fixed.scale_pos
  rw [Int.cast_mul] at worth
  exact ⟨target, credited, fees, price, collateral, seized, received, charged, priced, valued,
    least, covered, _, worth, executed⟩

/-- An account that owes ten units of an asset and falls short of its initial margin; both assets have a
liquidation fee, and no price is whole. -/
def debtor : Snapshot where
  account := { balances := [250 * Fixed.scale, -10 * Fixed.scale] }
  collaterals := [some ⟨"usd", "USD", 1000, 30⟩, some ⟨"sol", "SOL", 800, 25⟩]
  accruals := [{}, {}]
  prices := ⟨[⟨"SOL", 20300000000000⟩, ⟨"USD", Fixed.scale⟩]⟩
  collateralCount := 2

theorem seizure_least_charged :
    (⟨375, 20300000000000, 56701030927836⟩ : SeizedUnit).quantity 76125 47 47 = .ok 5 ∧
    IsLeast (Exact.sufficient ⟨375, 20300000000000, 56701030927836⟩
      (Exact.shortfall 76125 47 47)) 5 ∧
    debtor.violations = [] ∧ debtor.seizure 1 0 (some 1050) {} = .ok ⟨5, 108⟩ ∧
    (Exact.shortfall (Exact.requirement debtor .initial {}) 47 (Exact.accountValue debtor 47) : ℚ) ≤
      5 * 20300000000000 / Fixed.scale * (Exact.assetFactor .initial {} 800 -
        Exact.fees ⟨"sol", "SOL", 800, 25⟩ ⟨"usd", "USD", 1000, 30⟩) ∧
    ∃ value, IsLeast {v : Int | 5 * 20300000000000 ≤ v * Fixed.scale} value ∧
      108 = Exact.executed value (some 1050) := by
  have counted : (⟨375, 20300000000000, 56701030927836⟩ : SeizedUnit).quantity 76125 47 47 =
    .ok 5 := by cbv
  have accepted : debtor.violations = [] := by decide
  have done : debtor.seizure 1 0 (some 1050) {} = .ok ⟨5, 108⟩ := by cbv
  have terms : debtor.activeCollateral 1 = .ok ⟨"sol", "SOL", 800, 25⟩ ∧
    debtor.activeCollateral 0 = .ok ⟨"usd", "USD", 1000, 30⟩ := ⟨rfl, rfl⟩
  have price : debtor.priceOf "SOL" = .ok 20300000000000 := by cbv
  have collateral : debtor.collateral = .ok 47 := by cbv
  obtain ⟨_, _, _, _, _, seized, received, _, priced, valued, _, covered, value⟩ :=
    seizure_least.2 debtor 1 0 (some 1050) {} _ accepted done
  obtain rfl := Except.ok.inj (terms.1.symm.trans seized)
  obtain rfl := Except.ok.inj (terms.2.symm.trans received)
  obtain rfl := Except.ok.inj (price.symm.trans priced)
  obtain rfl := Except.ok.inj (collateral.symm.trans valued)
  refine ⟨counted, (seizure_least.1 _ _ _ _ _ counted).2, accepted, done, ?_, value⟩
  exact_mod_cast covered

end Snapshot
end Solvency
