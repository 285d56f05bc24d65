/-! The invariants that protocol data and accounts are checked for, by name. -/
namespace Solvency

inductive Invariant where
  | activeCountsWithinCapacity
  | collateralVectorsCoverActive
  | marketVectorsCoverActive
  | weightsInRange
  | liquidationFeesInRange
  | multipliersNonnegative
  | baseFactorsInRange
  | assetDecimalsNonnegative
  | oraclePricesPositive
  | oracleTableSortedUnique
  | positionKeysValid
  | restingOrdersNonnegative
  deriving DecidableEq, Repr

namespace Invariant

/-- Every invariant, in the order in which violations are listed. -/
def all : List Invariant :=
  [.activeCountsWithinCapacity, .collateralVectorsCoverActive, .marketVectorsCoverActive,
   .weightsInRange, .liquidationFeesInRange, .multipliersNonnegative, .baseFactorsInRange,
   .assetDecimalsNonnegative, .oraclePricesPositive, .oracleTableSortedUnique,
   .positionKeysValid, .restingOrdersNonnegative]

/-- The stable name under which a violation is reported. -/
def id : Invariant → String
  | .activeCountsWithinCapacity => "inv_active_counts_within_capacity"
  | .collateralVectorsCoverActive => "inv_collateral_vectors_cover_active"
  | .marketVectorsCoverActive => "inv_market_vectors_cover_active"
  | .weightsInRange => "inv_weights_in_range"
  | .liquidationFeesInRange => "inv_liq_fees_in_range"
  | .multipliersNonnegative => "inv_multipliers_nonneg"
  | .baseFactorsInRange => "inv_base_imf_in_range"
  | .assetDecimalsNonnegative => "inv_asset_decimals_nonneg"
  | .oraclePricesPositive => "inv_oracle_prices_positive"
  | .oracleTableSortedUnique => "inv_oracle_table_sorted_unique"
  | .positionKeysValid => "inv_position_keys_valid"
  | .restingOrdersNonnegative => "inv_resting_orders_nonneg"

end Invariant
end Solvency
