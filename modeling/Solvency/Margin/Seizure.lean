import Solvency.Margin.Check
import Solvency.Settings.Basic

/-! Spot liquidation sizing: how many units of a target collateral have to be seized, crediting a
quote collateral, to bring the account back to its initial margin. Each unit seized removes the
target's spot factor times its price and costs the fee-adjusted quote factor times its price. -/
namespace Solvency

/-- The weight of the quote collateral, raised by the fees of both sides, less one whole. It is
rounded up, so that the quantity sized by it is never too small. -/
def feeFactor (target quote : CollateralTerms) : Except Fault Int := do
  let weight ← Fixed.ofInt quote.weight
  let raised ← Width.i64.add oneWhole target.fee
  let gross ← Width.i128.mul weight raised
  let kept ← Width.i64.sub oneWhole quote.fee
  let adjusted ← Width.i128.ceilDiv gross kept
  let whole ← Fixed.ofInt oneWhole
  Width.i128.sub adjusted whole

/-- What one unit of an asset is worth in a seizure: the initial factor it frees, in permille, its
price, and the factor that the fees cost. -/
structure SeizedUnit where
  factor : Int
  price : Int
  fees : Int
  deriving DecidableEq, Repr

/-- The margin freed by seizing one unit. -/
def SeizedUnit.relief (u : SeizedUnit) : Except Fault Int := do
  let lifted ← Fixed.ofInt u.factor
  let difference ← Width.i128.sub lifted u.fees
  let relief ← Fixed.mul u.price difference
  if relief = 0 then fail (.margin .zeroDenominator)
  else if relief < 0 then fail (.margin (.config (.feeAboveFactor u.fees u.factor)))
  else pure relief

/-- The least quantity whose seizure covers the requirement, never negative. -/
def SeizedUnit.quantity (u : SeizedUnit) (requirement collateral accountValue : Int) :
    Except Fault Int := do
  let budget ← Width.i64.mul (min (max collateral 0) accountValue) oneWhole
  let shortfall ← Width.i64.sub requirement budget
  let relief ← u.relief
  let scaled ← Width.i128.mul shortfall Fixed.scale
  let quantity ← Width.i64.ceilDiv scaled relief
  pure (max quantity 0)

/-- A quantity to seize, and its value in quote units. -/
structure Seizure where
  quantity : Int
  value : Int
  deriving DecidableEq, Repr

namespace Snapshot

/-- Aggregates the account and sizes the seizure of a unit's asset. -/
def seizable (s : Snapshot) (u : SeizedUnit) (collateral : Int) (required : Requirements) :
    Except Fault Int := do
  let perp ← s.perpTotals collateral .both
  let spot ← s.borrowTotals perp.realized .both required
  let (factors, notionals) := FractionKind.initial.weighed perp spot
  let requirement ← Factor.dot factors notionals
  u.quantity requirement collateral perp.accountValue

/-- The terms of an active collateral. -/
def activeCollateral (s : Snapshot) (index : Int) : Except Fault CollateralTerms :=
  if 0 ≤ index ∧ index < min s.collateralCount s.collaterals.length then
    match s.collaterals[index.toNat]? with
    | some (some terms) => .ok terms
    | _ => fail (.margin (.config (.noCollateralConfig index)))
  else fail (.margin (.config (.inactiveCollateral index)))

/-- The quantity to seize and its value; a fudge, in permille, raises the value for execution and
leaves the quantity as it is. -/
def seizure (s : Snapshot) (asset quote : Int) (fudge : Option Int) (required : Requirements) :
    Except Fault Seizure := do
  let target ← s.activeCollateral asset
  let credited ← s.activeCollateral quote
  let factor ← Factor.spot required.initial target.weight
  let fees ← feeFactor target credited
  let price ← s.priceOf target.feed
  let collateral ← s.collateral
  let quantity ← s.seizable { factor, price, fees } collateral required
  let units ← Fixed.ofInt quantity
  let value ← Fixed.mul units price
  let value ← Fixed.ceil value
  match fudge with
  | none => pure { quantity, value }
  | some f =>
    let raised ← Width.i64.mul value f
    let value ← Width.i64.ceilDiv raised oneWhole
    pure { quantity, value }

end Snapshot

/-- Sizes a seizure with the requirements and the fudge of the settings. -/
def Settings.seizure (c : Settings) (s : Snapshot) (asset quote : Int) : Except Fault Seizure :=
  s.seizure asset quote c.fudge c.requirements

end Solvency
