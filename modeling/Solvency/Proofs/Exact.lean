import Mathlib.Algebra.Order.Ring.Abs
import Mathlib.Data.Rat.Floor
import Solvency.Margin.Check

/-! The margin check in exact arithmetic. Every amount is one rational expression, rounded once, and
the totals are plain sums over the active positions and borrows. A slot that the snapshot does not
hold counts as zeros here; where the check succeeds there is no such slot. -/
namespace Solvency.Exact

def market (s : Snapshot) (i : Nat) : MarketSlot where
  terms := s.markets[i]?.join.getD ⟨[], 0, 0⟩
  mark := s.marks[i]?.getD 0
  funding := s.fundings[i]?.getD 0

def asset (s : Snapshot) (j : Nat) : CollateralSlot where
  terms := s.collaterals[j]?.join.getD ⟨[], [], 0, 0⟩
  accrual := s.accruals[j]?.getD ⟨0, 0⟩

def price (s : Snapshot) (j : Nat) : Int :=
  ((s.prices.get? (asset s j).terms.feed).map PriceEntry.price).getD 0

/-- All that a position needs for its exact amounts is there. -/
structure Marked (s : Snapshot) (i : Nat) (p : Position) : Prop where
  found : s.marketAt i = .ok (market s i)
  factor : Width.u16.Holds (market s i).terms.baseFactor
  decimals : p.size ≠ 0 → 0 ≤ (market s i).terms.decimals

/-- All that a borrow needs for its exact amounts is there. -/
structure Priced (s : Snapshot) (j : Nat) : Prop where
  found : s.collateralAt j = .ok (asset s j)
  price : s.priceOf (asset s j).terms.feed = .ok (price s j)
  weight : (asset s j).terms.weight ≠ 0

/-- The profit of closing a position at the mark price. Values of units are fixed point. -/
def profit (p : Position) (mark : Int) : Int :=
  if 0 < p.size then ⌊(p.size * mark : ℚ) / Fixed.scale⌋ + p.quoteTotal
  else p.quoteTotal - ⌊(|p.size| * mark : ℚ) / Fixed.scale⌋

def funding (p : Position) (m : MarketSlot) : Int :=
  ⌊(p.size * (p.funding - m.funding) : ℚ) / 10 ^ m.terms.decimals⌋

/-- What a position adds to the account value. -/
def gain (p : Position) (m : MarketSlot) : Int :=
  p.realized + if p.size = 0 then 0 else profit p m.mark + funding p m

def held (p : Position) (mark : Int) : Int := ⌈(|p.size| * mark : ℚ) / Fixed.scale⌉

/-- The notional after the riskier side of the resting orders has filled. -/
def filled (p : Position) (mark : Int) : Int :=
  ⌈(max |p.size + p.bids| |p.size - p.asks| * mark : ℚ) / Fixed.scale⌉

def realized (s : Snapshot) : Int := (s.positions.map fun (_, p) => p.realized).sum

def accountValue (s : Snapshot) (collateral : Int) : Int :=
  collateral + (s.positions.map fun (i, p) => gain p (market s i)).sum

def borrows (s : Snapshot) : List (Nat × Int) := s.balances.filter fun (_, raw) => raw < 0

/-- The balance of a borrow with interest, in fixed point. Realized profit settles in one collateral. -/
def balance (s : Snapshot) (realized : Int) (j : Nat) (raw : Int) : Int :=
  ⌊(raw * (asset s j).accrual.borrow : ℚ) / Fixed.scale⌋ +
    if j = settlementIndex then realized * Fixed.scale else 0

/-- The notional of a borrow; one that profit covers has none. -/
def borrowed (s : Snapshot) (realized : Int) (j : Nat) (raw : Int) : Int :=
  max 0 ⌈(price s j * -balance s realized j raw : ℚ) / Fixed.scale ^ 2⌉

/-- Some notional is positive, with the resting orders filled. -/
def Exposed (s : Snapshot) : Prop :=
  (∃ x ∈ s.positions, 0 < filled x.2 (market s x.1).mark) ∨
    ∃ x ∈ borrows s, 0 < borrowed s (realized s) x.1 x.2

instance (s : Snapshot) : Decidable (Exposed s) := inferInstanceAs (Decidable (_ ∨ _))

/-- The notional of a position that a fraction weighs. -/
def notional (kind : FractionKind) (p : Position) (mark : Int) : Int :=
  match kind with
  | .maintenance => held p mark
  | _ => filled p mark

def marketFactor (kind : FractionKind) (base : Int) : Int :=
  match kind with
  | .initial => base
  | .maintenance => base / 2
  | .cancel => base * 5 / 8

/-- The ratio that a fraction asks of borrows. -/
def ratio (kind : FractionKind) (required : Requirements) : Int :=
  match kind with
  | .maintenance => required.maintenance
  | _ => required.initial

def assetFactor (kind : FractionKind) (required : Requirements) (weight : Int) : Int :=
  ⌈(ratio kind required / weight : ℚ)⌉ - oneWhole

/-- Every notional times the factor of its own market or asset. -/
def requirement (s : Snapshot) (kind : FractionKind) (required : Requirements) : Int :=
  (s.positions.map fun (i, p) => marketFactor kind (market s i).terms.baseFactor *
    notional kind p (market s i).mark).sum +
  ((borrows s).map fun (j, raw) => assetFactor kind required (asset s j).terms.weight *
    borrowed s (realized s) j raw).sum

def budget (s : Snapshot) (kind : FractionKind) (collateral : Int) : Int :=
  match kind with
  | .maintenance => accountValue s collateral * oneWhole
  | _ => min (accountValue s collateral) (collateral + realized s) * oneWhole

/-- The outcome of the check; equality of budget and requirement fails. -/
def outcome (s : Snapshot) (kind : FractionKind) (collateral : Int) (required : Requirements) :
    FractionOutcome :=
  if Exposed s then {
    kind
    passed := decide (requirement s kind required < budget s kind collateral)
    hasExposure := true
    budget := budget s kind collateral
    requirement := requirement s kind required }
  else { kind, passed := true, hasExposure := false, budget := 0, requirement := 0 }

end Solvency.Exact
