import Solvency.Datum.Amount
import Solvency.Datum.Key
import Solvency.Snapshot.Basic

/-! Snapshots as documents. Fixed-point fields are written as the shortest decimal texts, keys as
hexadecimal texts, and every field is written out, also one that holds its default. -/
namespace Solvency

def Position.toDocument (p : Position) : Document :=
  .record [
    ("key", .text (Datum.keyText p.key)),
    ("pos_size", .integer p.size),
    ("native_pc_total", .integer p.quoteTotal),
    ("realized_pnl", .integer p.realized),
    ("coin_on_bids", .integer p.bids),
    ("coin_on_asks", .integer p.asks),
    ("funding_index", .integer p.funding)]

def CollateralTerms.toDocument (c : CollateralTerms) : Document :=
  .record [
    ("mint", .text c.mint),
    ("oracle_symbol", .text c.feed),
    ("weight", .integer c.weight),
    ("liq_fee", .integer c.fee)]

def MarketTerms.toDocument (m : MarketTerms) : Document :=
  .record [
    ("symbol", .text m.symbol),
    ("asset_decimals", .integer m.decimals),
    ("base_imf", .integer m.baseFactor)]

/-- The decimal of a fixed-point field. -/
def amountDocument (raw : Int) : Except Fault Document := Document.text <$> Datum.amountText raw

def Accrual.toDocument (a : Accrual) : Except Fault Document := do
  let supply ← amountDocument a.supply
  let borrow ← amountDocument a.borrow
  pure (.record [("supply_multiplier", supply), ("borrow_multiplier", borrow)])

def PriceEntry.toDocument (e : PriceEntry) : Except Fault Document := do
  let price ← amountDocument e.price
  pure (.record [("symbol", .text e.symbol), ("price", price)])

/-- A slot, with null for an empty one. -/
def slotDocument {α : Type} (write : α → Document) (slot : Option α) : Document :=
  (slot.map write).getD .null

def Account.toDocument (a : Account) : Except Fault Document := do
  let balances ← a.balances.mapM amountDocument
  pure (.record [
    ("collateral", .list balances),
    ("positions", .list (a.positions.map (slotDocument Position.toDocument)))])

def Snapshot.toDocument (s : Snapshot) : Except Fault Document := do
  let account ← s.account.toDocument
  let accruals ← s.accruals.mapM Accrual.toDocument
  let prices ← s.prices.entries.mapM PriceEntry.toDocument
  let marks ← s.marks.mapM amountDocument
  pure (.record [
    ("account", account),
    ("total_collaterals", .integer s.collateralCount),
    ("total_markets", .integer s.marketCount),
    ("collaterals", .list (s.collaterals.map (slotDocument CollateralTerms.toDocument))),
    ("perp_markets", .list (s.markets.map (slotDocument MarketTerms.toDocument))),
    ("borrows", .list accruals),
    ("oracles", .list prices),
    ("mark_prices", .list marks),
    ("funding_indices", .list (s.fundings.map .integer))])

end Solvency
