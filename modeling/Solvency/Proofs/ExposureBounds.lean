import Solvency.Proofs.Levels

/-! Notionals beside the exposures that they stand for. Every rounding between an exposure and its
notional goes up, so that no exposure is understated, and one that is not zero counts for a whole quote
unit at least, however small it is. -/
namespace Solvency

namespace Exact

/-- The exposure of a position in quote units, before any rounding. -/
def heldExposure (p : Position) (mark : Int) : ℚ := |p.size| * mark / Fixed.scale

/-- The exposure after the riskier side of the resting orders has filled. -/
def filledExposure (p : Position) (mark : Int) : ℚ :=
  max |p.size + p.bids| |p.size - p.asks| * mark / Fixed.scale

/-- The exposure of a borrow; realized profit that settles in it may make it negative. -/
def borrowedExposure (s : Snapshot) (realized : Int) (j : Nat) (raw : Int) : ℚ :=
  price s j * (|raw| * (asset s j).accrual.borrow / Fixed.scale -
    (if j = settlementIndex then realized * Fixed.scale else 0 : Int)) / Fixed.scale ^ 2

/-- The integer is at least the amount; any amount above zero comes to one or more. -/
structure Covers (amount : ℚ) (n : Int) : Prop where
  le : amount ≤ n
  one_le : 0 < amount → 1 ≤ n

/-- The least integer that covers the amount. -/
structure RoundedUp (amount : ℚ) (n : Int) : Prop extends Covers amount n where
  lt : n < amount + 1

theorem covers_of_le {amount : ℚ} {n : Int} (le : amount ≤ n) : Covers amount n where
  le := le
  one_le positive := by exact_mod_cast positive.trans_le le

theorem roundedUp_ceil (amount : ℚ) : RoundedUp amount ⌈amount⌉ where
  toCovers := covers_of_le (Int.le_ceil amount)
  lt := Int.ceil_lt_add_one amount

theorem held_roundedUp (p : Position) (mark : Int) :
    RoundedUp (heldExposure p mark) (held p mark) := roundedUp_ceil _

theorem filled_roundedUp (p : Position) (mark : Int) :
    RoundedUp (filledExposure p mark) (filled p mark) := roundedUp_ceil _

/-- Interest on a debt is rounded towards the larger debt, and so is its price. -/
theorem borrowed_covers {s : Snapshot} {j : Nat} {raw : Int} (realized : Int) (owed : raw < 0)
    (priced : 0 ≤ price s j) :
    Covers (borrowedExposure s realized j raw) (borrowed s realized j raw) := by
  apply covers_of_le
  have accrued := Int.floor_le ((raw * (asset s j).accrual.borrow : ℚ) / Fixed.scale)
  have debt : (|raw| * (asset s j).accrual.borrow / Fixed.scale : ℚ) -
      (if j = settlementIndex then realized * Fixed.scale else 0 : Int) ≤
      -balance s realized j raw := by
    rw [balance, abs_of_neg owed, Int.cast_neg, Int.cast_add, neg_mul, neg_div]
    linarith
  have unit : (0 : ℚ) ≤ price s j := by exact_mod_cast priced
  have scale := scale_pos
  calc borrowedExposure s realized j raw
      ≤ price s j * -balance s realized j raw / Fixed.scale ^ 2 := by
        unfold borrowedExposure
        gcongr
    _ ≤ ⌈(price s j * -balance s realized j raw : ℚ) / Fixed.scale ^ 2⌉ := Int.le_ceil _
    _ ≤ borrowed s realized j raw := Int.cast_le.mpr (le_max_right _ _)

/-- Some position, with or without its orders, is exposed by any amount at all. -/
def PositionExposed (s : Snapshot) : Prop := ∃ x ∈ s.positions,
  0 < heldExposure x.2 (market s x.1).mark ∨ 0 < filledExposure x.2 (market s x.1).mark

def BorrowExposed (s : Snapshot) (realized : Int) : Prop :=
  ∃ x ∈ borrows s, 0 < borrowedExposure s realized x.1 x.2

variable {s : Snapshot}

theorem exists_filled_of_exposed (accepted : s.violations = [])
    (marks : ∀ mark ∈ s.marks.take s.marketCount.toNat, 0 ≤ mark) (exposed : PositionExposed s) :
    ∃ x ∈ s.positions, 0 < filled x.2 (market s x.1).mark := by
  obtain ⟨x, member, positive⟩ := exposed
  refine ⟨x, member, ?_⟩
  rcases positive with held | filled
  · obtain ⟨bids, _, asks, _⟩ := Snapshot.orders_of_accepted accepted member
    have one := (held_roundedUp x.2 (market s x.1).mark).one_le held
    have grown := held_le_filled bids asks (Snapshot.mark_nonneg member marks)
    omega
  · have one := (filled_roundedUp x.2 (market s x.1).mark).one_le filled
    omega

theorem exists_borrowed_of_exposed {realized : Int} (priced : ∀ x ∈ borrows s, 0 ≤ price s x.1)
    (exposed : BorrowExposed s realized) :
    ∃ x ∈ borrows s, 0 < borrowed s realized x.1 x.2 := by
  obtain ⟨x, member, positive⟩ := exposed
  have owed := (Snapshot.mem_borrows.mp member).2
  have one := (borrowed_covers realized owed (priced x member)).one_le positive
  exact ⟨x, member, by omega⟩

theorem Priced.nonneg {j : Nat} (priced : Priced s j) (accepted : s.violations = []) :
    0 ≤ Exact.price s j := (Snapshot.price_of_accepted accepted priced.price).le

end Exact

/-- Entry by entry, the notionals of the positions cover their exposures, and any exposure sets the
flag. -/
structure PerpTotals.CoverExposures (s : Snapshot) (t : PerpTotals) : Prop where
  marked : ∀ x ∈ s.positions, Exact.Marked s x.1 x.2
  held : List.Forall₂
    (fun x => Exact.RoundedUp (Exact.heldExposure x.2 (Exact.market s x.1).mark))
    s.positions t.heldNotionals
  filled : List.Forall₂
    (fun x => Exact.RoundedUp (Exact.filledExposure x.2 (Exact.market s x.1).mark))
    s.positions t.filledNotionals
  held_le_filled : List.Forall₂ (· ≤ ·) t.heldNotionals t.filledNotionals
  flagged : Exact.PositionExposed s → t.hasExposure = true

/-- Entry by entry, the notionals of the borrows cover their exposures, and any exposure sets the
flag. -/
structure BorrowTotals.CoverExposures (s : Snapshot) (realized : Int) (b : BorrowTotals) :
    Prop where
  priced : ∀ x ∈ Exact.borrows s, Exact.Priced s x.1
  borrowed : List.Forall₂
    (fun x n => Exact.Covers (Exact.borrowedExposure s realized x.1 x.2) n ∧ 0 ≤ n)
    (Exact.borrows s) b.notionals
  flagged : Exact.BorrowExposed s realized → b.hasExposure = true

namespace Snapshot

variable {s : Snapshot}

theorem perpTotals_cover {collateral : Int} {wanted : FactorChoice} {t : PerpTotals}
    (accepted : s.violations = []) (marks : ∀ mark ∈ s.marks.take s.marketCount.toNat, 0 ≤ mark)
    (done : s.perpTotals collateral wanted = .ok t) : t.CoverExposures s := by
  have marked := marked_of_perpTotals done
  obtain rfl := perpTotals_eq_ok done
  simp only [PerpTotals.sums, List.nil_append, Bool.false_or] at *
  constructor
  case marked => exact marked
  case held =>
    rw [List.forall₂_map_right_iff, List.forall₂_same]
    exact fun x _ => Exact.held_roundedUp x.2 _
  case filled =>
    rw [List.forall₂_map_right_iff, List.forall₂_same]
    exact fun x _ => Exact.filled_roundedUp x.2 _
  case held_le_filled =>
    rw [List.forall₂_map_left_iff, List.forall₂_map_right_iff, List.forall₂_same]
    intro x member
    obtain ⟨bids, _, asks, _⟩ := orders_of_accepted accepted member
    exact Exact.held_le_filled bids asks (mark_nonneg member marks)
  case flagged =>
    intro exposed
    obtain ⟨x, member, positive⟩ := Exact.exists_filled_of_exposed accepted marks exposed
    exact List.any_eq_true.mpr ⟨x, member, by simpa using positive⟩

theorem borrowTotals_cover {realized : Int} {wanted : FactorChoice} {required : Requirements}
    {b : BorrowTotals} (accepted : s.violations = [])
    (done : s.borrowTotals realized wanted required = .ok b) : b.CoverExposures s realized := by
  have priced := priced_of_borrowTotals done
  have nonneg : ∀ x ∈ Exact.borrows s, 0 ≤ Exact.price s x.1 :=
    fun x member => (priced x member).nonneg accepted
  obtain rfl := borrowTotals_eq_ok done
  simp only [BorrowTotals.sums, List.nil_append, Bool.false_or] at *
  constructor
  case priced => exact priced
  case borrowed =>
    rw [List.forall₂_map_right_iff, List.forall₂_same]
    intro x member
    have owed := (mem_borrows.mp member).2
    exact ⟨Exact.borrowed_covers realized owed (nonneg x member), le_max_left _ _⟩
  case flagged =>
    intro exposed
    obtain ⟨x, member, positive⟩ := Exact.exists_borrowed_of_exposed nonneg exposed
    exact List.any_eq_true.mpr ⟨x, member, by simpa using positive⟩

/-- No notional is less than the exposure it stands for, and none of a position is one unit more. The
smallest exposure shows in its entry, in the flag of its fold and in that of every check. -/
theorem exposures_covered (s : Snapshot) (accepted : s.violations = [])
    (marks : ∀ mark ∈ s.marks.take s.marketCount.toNat, 0 ≤ mark) :
    (∀ (collateral : Int) (wanted : FactorChoice) (t : PerpTotals),
      s.perpTotals collateral wanted = .ok t → t.CoverExposures s) ∧
    (∀ (realized : Int) (wanted : FactorChoice) (required : Requirements) (b : BorrowTotals),
      s.borrowTotals realized wanted required = .ok b → b.CoverExposures s realized) ∧
    ∀ (kind : FractionKind) (collateral : Int) (required : Requirements) (o : FractionOutcome),
      s.evaluate kind collateral required = .ok o →
      Exact.PositionExposed s ∨ Exact.BorrowExposed s (Exact.realized s) →
      o.hasExposure = true := by
  refine ⟨fun _ _ _ => perpTotals_cover accepted marks, fun _ _ _ _ => borrowTotals_cover accepted,
    fun kind collateral required o done some => ?_⟩
  obtain ⟨_, _, priced⟩ := evaluate_eq_ok done
  have exposed : Exact.Exposed s := by
    rcases some with position | borrow
    · exact .inl (Exact.exists_filled_of_exposed accepted marks position)
    · exact .inr (Exact.exists_borrowed_of_exposed
        (fun x member => (priced x member).nonneg accepted) borrow)
  rw [evaluate_exposed done exposed]

/-- One unit in a market at the lowest price there is, one resting order in another, and a debt of the
least amount, at the lowest price too. -/
def dust : Snapshot where
  account := {
    balances := [1000000000000, -1]
    positions := [
      some { key := 1 :: List.replicate 31 0, size := -1 },
      some { key := 2 :: List.replicate 31 0, asks := 1 }] }
  collaterals := [some ⟨"usd", "USD", 1000, 0⟩, some ⟨"sol", "SOL", 800, 0⟩]
  markets := [some ⟨"A", 0, 100⟩, some ⟨"B", 0, 100⟩]
  accruals := [{}, {}]
  prices := ⟨[⟨"SOL", 1⟩, ⟨"USD", 1000000000000⟩]⟩
  marks := [1, 1]
  fundings := [0, 0]
  collateralCount := 2
  marketCount := 2

theorem exposures_covered_dust :
    dust.violations = [] ∧ (∀ mark ∈ dust.marks.take dust.marketCount.toNat, 0 ≤ mark) ∧
    (∃ t, dust.perpTotals 1 .both = .ok t ∧ t.heldNotionals = [1, 0] ∧ t.filledNotionals = [1, 1] ∧
      t.CoverExposures dust) ∧
    ∃ b, dust.borrowTotals 0 .both {} = .ok b ∧ b.notionals = [1] ∧ b.CoverExposures dust 0 := by
  have accepted : dust.violations = [] := by decide
  have marks : ∀ mark ∈ dust.marks.take dust.marketCount.toNat, 0 ≤ mark := by decide
  have positions : dust.perpTotals 1 .both = .ok {
      accountValue := 1, hasExposure := true
      initialFactors := [100, 100], maintenanceFactors := [50, 50]
      filledNotionals := [1, 1], heldNotionals := [1, 0] } := by cbv
  have borrows : dust.borrowTotals 0 .both {} = .ok {
      hasExposure := true, initialFactors := [375], maintenanceFactors := [288]
      notionals := [1] } := by cbv
  obtain ⟨perp, spot, _⟩ := exposures_covered dust accepted marks
  exact ⟨accepted, marks, ⟨_, positions, rfl, rfl, perp _ _ _ positions⟩,
    _, borrows, rfl, spot _ _ _ _ borrows⟩

end Snapshot
end Solvency
