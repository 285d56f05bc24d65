import Solvency.Arithmetic.Fixed
import Solvency.PriceTable

/-! One account and the protocol data that prices it, at one point in time. Prices, multipliers and
raw balances are fixed point; weights, fees and factors are permille; sizes are signed native
asset units and everything else native quote units. Slot vectors have the protocol's capacity,
`none` marks an empty slot, and only the first `collateralCount` and `marketCount` entries are
active. -/
namespace Solvency

def marketCapacity : Int := 50

def collateralCapacity : Int := 25

/-- The length of an account key in bytes. -/
def keyLength : Nat := 32

/-- The key of an empty slot. -/
def blankKey : List UInt8 := List.replicate keyLength 0

/-- Realized profit and loss settles in the collateral with this index. -/
def settlementIndex : Nat := 0

/-- The ratios, in millionths, that spot borrows have to be covered at. -/
structure Requirements where
  initial : Int := 1100000
  maintenance : Int := 1030000
  deriving DecidableEq, Repr

/-- One collateral, with the symbol that its price is looked up by. -/
structure CollateralTerms where
  mint : Text
  feed : Text
  weight : Int
  fee : Int := 0
  deriving DecidableEq, Repr

structure MarketTerms where
  symbol : Text
  decimals : Int
  baseFactor : Int
  deriving DecidableEq, Repr

/-- Accrued-interest multipliers of one collateral. -/
structure Accrual where
  supply : Int := Fixed.scale
  borrow : Int := Fixed.scale
  deriving DecidableEq, Repr

/-- The open position of one account in one market, and its resting orders. -/
structure Position where
  key : List UInt8
  size : Int := 0
  quoteTotal : Int := 0
  realized : Int := 0
  bids : Int := 0
  asks : Int := 0
  /-- The market's funding index when the position last settled. -/
  funding : Int := 0
  deriving DecidableEq, Repr

structure Account where
  balances : List Int := []
  positions : List (Option Position) := []
  deriving DecidableEq, Repr

structure Snapshot where
  account : Account := {}
  collaterals : List (Option CollateralTerms) := []
  markets : List (Option MarketTerms) := []
  accruals : List Accrual := []
  prices : PriceTable := {}
  marks : List Int := []
  fundings : List Int := []
  collateralCount : Int := 0
  marketCount : Int := 0
  deriving DecidableEq, Repr

/-- All that a snapshot says of one collateral slot. -/
structure CollateralSlot where
  terms : CollateralTerms
  accrual : Accrual
  deriving DecidableEq, Repr

/-- All that a snapshot says of one market slot. -/
structure MarketSlot where
  terms : MarketTerms
  mark : Int
  funding : Int
  deriving DecidableEq, Repr

/-- Slots are counted from the start, negative indices from the end. -/
def slotAt {α : Type} (slots : List α) (index : Int) : Except Fault α :=
  let place := if 0 ≤ index then index else slots.length + index
  match if 0 ≤ place then slots[place.toNat]? else none with
  | some a => .ok a
  | none => fail .slotOutOfRange

namespace Snapshot

/-- The non-empty positions in active market slots, in ascending market index. -/
def positions (s : Snapshot) : List (Nat × Position) :=
  (s.account.positions.take s.marketCount.toNat).zipIdx.filterMap fun (p, i) => p.map (i, ·)

/-- The balances in active collateral slots, in ascending collateral index. -/
def balances (s : Snapshot) : List (Nat × Int) :=
  (s.account.balances.take s.collateralCount.toNat).zipIdx.map fun (raw, i) => (i, raw)

/-- The collateral slot of a balance. -/
def collateralAt (s : Snapshot) (index : Int) : Except Fault CollateralSlot :=
  if s.collaterals.length ≤ index ∨ s.accruals.length ≤ index then
    fail (.margin (.config (.noCollateralEntry index)))
  else do
    match ← slotAt s.collaterals index with
    | none => fail (.margin (.config (.emptyCollateral index)))
    | some terms =>
      let accrual ← slotAt s.accruals index
      pure { terms, accrual }

/-- The market slot of a position. -/
def marketAt (s : Snapshot) (index : Int) : Except Fault MarketSlot :=
  if s.markets.length ≤ index ∨ s.marks.length ≤ index ∨ s.fundings.length ≤ index then
    fail (.margin (.config (.noMarketEntry index)))
  else do
    match ← slotAt s.markets index with
    | none => fail (.margin (.config (.emptyMarket index)))
    | some terms =>
      let mark ← slotAt s.marks index
      let funding ← slotAt s.fundings index
      pure { terms, mark, funding }

/-- The oracle price of a symbol. -/
def priceOf (s : Snapshot) (symbol : Text) : Except Fault Int :=
  match s.prices.get? symbol with
  | some entry => .ok entry.price
  | none => fail (.margin (.priceUnavailable symbol))

end Snapshot
end Solvency
