import Solvency.Arithmetic.Factor
import Solvency.Snapshot.Basic

/-! The checks behind the invariants. They are made once, before an account is assessed. -/
namespace Solvency
namespace Snapshot

/-- The first entries of a vector; a negative count leaves off entries at the end. -/
def firstSlots {α : Type} (slots : List α) (count : Int) : List α :=
  if 0 ≤ count then slots.take count.toNat else slots.take (slots.length - count.natAbs)

def checkedCollaterals (s : Snapshot) : List CollateralTerms :=
  (firstSlots s.collaterals s.collateralCount).filterMap id

def checkedMarkets (s : Snapshot) : List MarketTerms :=
  (firstSlots s.markets s.marketCount).filterMap id

def openPositions (s : Snapshot) : List Position := s.account.positions.filterMap id

/-- Neighbouring symbols ascend strictly. -/
def strictlyAscending : List Text → Bool
  | a :: b :: rest => a.before b && strictlyAscending (b :: rest)
  | _ => true

/-- The snapshot satisfies an invariant. -/
def satisfies (s : Snapshot) : Invariant → Bool
  | .activeCountsWithinCapacity =>
    decide (0 ≤ s.collateralCount) && decide (s.collateralCount ≤ collateralCapacity) &&
      decide (0 ≤ s.marketCount) && decide (s.marketCount ≤ marketCapacity)
  | .collateralVectorsCoverActive =>
    decide (s.collateralCount ≤ s.collaterals.length) &&
      decide (s.collateralCount ≤ s.accruals.length) &&
      decide (s.collateralCount ≤ s.account.balances.length)
  | .marketVectorsCoverActive =>
    decide (s.marketCount ≤ s.markets.length) &&
      decide (s.marketCount ≤ s.marks.length) &&
      decide (s.marketCount ≤ s.fundings.length) &&
      decide (s.marketCount ≤ s.account.positions.length)
  | .weightsInRange => s.checkedCollaterals.all fun c => 0 < c.weight && c.weight ≤ oneWhole
  | .liquidationFeesInRange =>
    s.checkedCollaterals.all fun c => 0 ≤ c.fee && c.fee < oneWhole
  | .multipliersNonnegative =>
    (firstSlots s.accruals s.collateralCount).all fun a => 0 ≤ a.supply && 0 ≤ a.borrow
  | .baseFactorsInRange => s.checkedMarkets.all fun m => decide (Width.u16.Holds m.baseFactor)
  | .assetDecimalsNonnegative => s.checkedMarkets.all fun m => 0 ≤ m.decimals
  | .oraclePricesPositive => s.prices.entries.all fun e => 0 < e.price
  | .oracleTableSortedUnique => strictlyAscending s.prices.symbols
  | .positionKeysValid =>
    s.openPositions.all fun p => p.key.length == keyLength && p.key != blankKey
  | .restingOrdersNonnegative =>
    s.openPositions.all fun p =>
      0 ≤ p.bids && p.bids ≤ Width.i64.hi && 0 ≤ p.asks && p.asks ≤ Width.i64.hi

/-- The invariants that a snapshot violates, in listing order. -/
def violations (s : Snapshot) : List Invariant := Invariant.all.filter fun i => !s.satisfies i

/-- Passes exactly the snapshots without violations. -/
def validate (s : Snapshot) : Except Fault Unit :=
  match s.violations with
  | [] => .ok ()
  | violated => fail (.margin (.config (.violated violated)))

end Snapshot
end Solvency
