import Solvency.Proofs.Checked
import Solvency.Proofs.Slots

/-! The fold over the positions. Where it succeeds, each step adds the exact amounts of its position,
and the totals are sums and lists of these amounts over the active positions. -/
namespace Solvency

theorem tenTo_cast (n : Nat) : ((tenTo n : Nat) : ℚ) = 10 ^ n := by simp [tenTo]

theorem fundingUnits_eq_ok {owed decimals r : Int} (done : fundingUnits owed decimals = .ok r) :
    0 ≤ decimals ∧ r = ⌊(owed : ℚ) / 10 ^ decimals⌋ := by
  unfold fundingUnits at done
  split at done
  · rename_i nonneg
    simp only [bind_eq_ok, Width.div_eq_ok, Width.check_eq_ok] at done
    obtain ⟨_, ⟨_, _, rfl⟩, _, rfl⟩ := done
    refine ⟨nonneg, ?_⟩
    obtain ⟨n, rfl⟩ := Int.eq_ofNat_of_zero_le nonneg
    simp [tenTo_cast]
  · split at done
    · exact absurd done (fail_ne_ok _ _)
    · split at done <;> exact absurd done (fail_ne_ok _ _)

theorem notional_eq_ok {units mark r : Int} (done : notional units mark = .ok r) :
    r = ⌈(units * mark : ℚ) / Fixed.scale⌉ := by
  simp only [notional, bind_eq_ok, Fixed.ceil_eq_ok] at done
  obtain ⟨_, lifted, _, product, _, rfl⟩ := done
  rw [Fixed.mul_lifted lifted product, Int.cast_mul]

namespace Position

variable {p : Position} {m : MarketSlot} {mark value r : Int}

theorem accruedFunding_eq_ok (done : p.accruedFunding m = .ok r) :
    0 ≤ m.terms.decimals ∧ r = Exact.funding p m := by
  simp only [accruedFunding, bind_eq_ok, Width.sub_eq_ok, Width.mul_eq_ok] at done
  obtain ⟨_, ⟨_, rfl⟩, _, ⟨_, rfl⟩, done⟩ := done
  obtain ⟨nonneg, rfl⟩ := fundingUnits_eq_ok done
  refine ⟨nonneg, ?_⟩
  simp [Exact.funding]

theorem profit_eq_ok (done : p.profit mark = .ok r) : r = Exact.profit p mark := by
  unfold profit at done
  split at done
  · rename_i long
    simp only [bind_eq_ok, Fixed.floor_eq_ok, Width.sub_eq_ok] at done
    obtain ⟨_, lifted, _, product, _, ⟨_, rfl⟩, _, rfl⟩ := done
    rw [Fixed.mul_lifted lifted product, Exact.profit, if_pos long, Int.cast_mul, sub_neg_eq_add]
  · rename_i short
    simp only [bind_eq_ok, Fixed.floor_eq_ok, Width.sub_eq_ok] at done
    obtain ⟨_, lifted, _, product, _, ⟨_, rfl⟩, _, rfl⟩ := done
    rw [Fixed.mul_lifted lifted product, Exact.profit, if_neg short,
      abs_of_nonpos (not_lt.mp short), Int.cast_mul]

/-- A step adds the gain of its position; the decimals of the market have to have a unit then. -/
theorem addedTo_eq_ok (done : p.addedTo m value = .ok r) :
    r = value + Exact.gain p m ∧ (p.size ≠ 0 → 0 ≤ m.terms.decimals) := by
  unfold addedTo at done
  split at done
  · rename_i flat
    simp [(Width.add_eq_ok.mp done).2, Exact.gain, flat]
  · rename_i sized
    simp only [bind_eq_ok] at done
    obtain ⟨funding, accrued, profit, closed, done⟩ := done
    obtain ⟨nonneg, rfl⟩ := accruedFunding_eq_ok accrued
    refine ⟨?_, fun _ => nonneg⟩
    rw [Width.sum_eq_ok done, profit_eq_ok closed, Exact.gain, if_neg sized]
    simp

theorem heldNotional_eq_ok (done : p.heldNotional mark = .ok r) : r = Exact.held p mark := by
  rw [notional_eq_ok done, Exact.held]
  simp

theorem filledNotional_eq_ok (done : p.filledNotional mark = .ok r) : r = Exact.filled p mark := by
  simp only [filledNotional, bind_eq_ok, Width.add_eq_ok, Width.sub_eq_ok] at done
  obtain ⟨_, ⟨_, rfl⟩, _, ⟨_, rfl⟩, done⟩ := done
  rw [notional_eq_ok done, Exact.filled]
  simp

end Position

theorem appended_ok (wanted : Bool) (factors : List Int) (f : Int) :
    appended wanted factors (.ok f) = .ok (factors ++ if wanted then [f] else []) := by
  cases wanted <;> simp [appended, pure, Except.pure]

theorem appended_eq_ok {wanted : Bool} {factors r : List Int} {factor : Except Fault Int} {f : Int}
    (exact : ∀ g, factor = .ok g → g = f) (done : appended wanted factors factor = .ok r) :
    r = factors ++ if wanted then [f] else [] := by
  cases wanted with
  | false => cases done; simp
  | true =>
    simp only [appended, if_true, bind_eq_ok] at done
    obtain ⟨g, found, made⟩ := done
    cases made
    simp [exact g found]

namespace PerpTotals

/-- The exact step of the fold. -/
def plus (wanted : FactorChoice) (t : PerpTotals) (p : Position) (m : MarketSlot) : PerpTotals where
  accountValue := t.accountValue + Exact.gain p m
  hasExposure := t.hasExposure || decide (0 < Exact.filled p m.mark)
  realized := t.realized + p.realized
  initialFactors := t.initialFactors ++ if wanted.hasInitial then
    [Exact.marketFactor .initial m.terms.baseFactor] else []
  maintenanceFactors := t.maintenanceFactors ++ if wanted.hasMaintenance then
    [Exact.marketFactor .maintenance m.terms.baseFactor] else []
  cancelFactors := t.cancelFactors ++ if wanted.hasCancel then
    [Exact.marketFactor .cancel m.terms.baseFactor] else []
  filledNotionals := t.filledNotionals ++ [Exact.filled p m.mark]
  heldNotionals := t.heldNotionals ++ [Exact.held p m.mark]

theorem add_eq_ok {t r : PerpTotals} {p : Position} {m : MarketSlot} {wanted : FactorChoice}
    (done : t.add p m wanted = .ok r) : r = t.plus wanted p m ∧
      Width.u16.Holds m.terms.baseFactor ∧ (p.size ≠ 0 → 0 ≤ m.terms.decimals) := by
  simp only [add, bind_eq_ok, Width.check_eq_ok, Width.add_eq_ok] at done
  obtain ⟨_, value, _, held, _, filled, base, ⟨fits, rfl⟩, _, initial, _, maintenance, _, cancel,
    _, ⟨_, rfl⟩, made⟩ := done
  cases made
  obtain ⟨rfl, decimals⟩ := Position.addedTo_eq_ok value
  refine ⟨?_, fits, decimals⟩
  rw [Position.heldNotional_eq_ok held, Position.filledNotional_eq_ok filled,
    appended_eq_ok (f := m.terms.baseFactor) (fun g h => (Except.ok.inj h).symm) initial,
    appended_eq_ok (fun g h => (Factor.maintenance_eq_ok.mp h).2) maintenance,
    appended_eq_ok (fun g h => (Factor.cancel_eq_ok.mp h).2) cancel]
  rfl

/-- What a list of positions adds to the totals. -/
def sums (s : Snapshot) (wanted : FactorChoice) (t : PerpTotals) (xs : List (Nat × Position)) :
    PerpTotals where
  accountValue := t.accountValue + (xs.map fun (i, p) => Exact.gain p (Exact.market s i)).sum
  hasExposure := t.hasExposure || xs.any fun (i, p) => 0 < Exact.filled p (Exact.market s i).mark
  realized := t.realized + (xs.map fun (_, p) => p.realized).sum
  initialFactors := t.initialFactors ++ if wanted.hasInitial then
    xs.map fun (i, _) => Exact.marketFactor .initial (Exact.market s i).terms.baseFactor else []
  maintenanceFactors := t.maintenanceFactors ++ if wanted.hasMaintenance then
    xs.map fun (i, _) => Exact.marketFactor .maintenance (Exact.market s i).terms.baseFactor else []
  cancelFactors := t.cancelFactors ++ if wanted.hasCancel then
    xs.map fun (i, _) => Exact.marketFactor .cancel (Exact.market s i).terms.baseFactor else []
  filledNotionals := t.filledNotionals ++
    xs.map fun (i, p) => Exact.filled p (Exact.market s i).mark
  heldNotionals := t.heldNotionals ++ xs.map fun (i, p) => Exact.held p (Exact.market s i).mark

theorem foldl_plus (s : Snapshot) (wanted : FactorChoice) (t : PerpTotals)
    (xs : List (Nat × Position)) :
    xs.foldl (fun t (i, p) => t.plus wanted p (Exact.market s i)) t = t.sums s wanted xs := by
  induction xs generalizing t with
  | nil => simp [sums]
  | cons x rest ih =>
    rw [List.foldl_cons, ih]
    cases wanted <;> simp [sums, plus, add_assoc, Bool.or_assoc, FactorChoice.hasInitial,
      FactorChoice.hasMaintenance, FactorChoice.hasCancel]

end PerpTotals

namespace Snapshot

variable {s : Snapshot} {collateral : Int} {wanted : FactorChoice} {t : PerpTotals}

/-- One step of the fold over the positions. -/
def addPosition (s : Snapshot) (wanted : FactorChoice) (t : PerpTotals) (x : Nat × Position) :
    Except Fault PerpTotals := do
  let m ← s.marketAt x.1
  t.add x.2 m wanted

theorem perpTotals_eq (s : Snapshot) (collateral : Int) (wanted : FactorChoice) :
    s.perpTotals collateral wanted = Width.i64.check collateral >>= fun collateral =>
      s.positions.foldlM (s.addPosition wanted) { accountValue := collateral } := rfl

theorem perpTotals_eq_ok (done : s.perpTotals collateral wanted = .ok t) :
    t = PerpTotals.sums s wanted { accountValue := collateral } s.positions := by
  simp only [perpTotals, bind_eq_ok, Width.check_eq_ok] at done
  obtain ⟨_, ⟨_, rfl⟩, run⟩ := done
  rw [← PerpTotals.foldl_plus]
  refine foldlM_eq_ok _ (fun t t' x _ step => ?_) run
  obtain ⟨m, found, added⟩ := bind_eq_ok.mp step
  obtain rfl := marketAt_exact found
  exact (PerpTotals.add_eq_ok added).1

/-- What a step shows of its position holds of every position of a run. -/
theorem forall_of_perpTotals {P : Nat × Position → Prop}
    (step : ∀ t t' x, s.marketAt x.1 = .ok (Exact.market s x.1) →
      PerpTotals.add t x.2 (Exact.market s x.1) wanted = .ok t' → P x)
    (done : s.perpTotals collateral wanted = .ok t) : ∀ x ∈ s.positions, P x := by
  rw [perpTotals_eq] at done
  obtain ⟨_, _, run⟩ := bind_eq_ok.mp done
  refine forall_of_foldlM (fun t t' x _ stepped => ?_) run
  obtain ⟨m, found, added⟩ := bind_eq_ok.mp stepped
  obtain rfl := marketAt_exact found
  exact step t t' x found added

theorem marked_of_perpTotals (done : s.perpTotals collateral wanted = .ok t) :
    ∀ x ∈ s.positions, Exact.Marked s x.1 x.2 := by
  refine forall_of_perpTotals (fun t t' x found added => ?_) done
  obtain ⟨_, factor, decimals⟩ := PerpTotals.add_eq_ok added
  exact ⟨found, factor, decimals⟩

end Snapshot
end Solvency
