import Solvency.Document.Pairs
import Solvency.Document.Screen
import Solvency.Datum.Amount
import Solvency.Datum.Key
import Solvency.Datum.Member
import Solvency.Snapshot.Basic

/-! Snapshots from documents. A document is screened as a whole before any field of it is read;
then the account comes first and the protocol data in a fixed order, so of several faults the
first in that order is reported. -/
namespace Solvency

open Datum

/-- A key of zeros marks an empty slot, whatever else the mapping holds. -/
def Position.ofMembers? (name : String) (ms : Members) : Except Fault (Option Position) := do
  let key ← required ms "key"
  let key ← Datum.key (name ++ ".key") (.integer keyLength) key
  if key = blankKey then pure none
  else
    let field (key : String) : Except Fault Int :=
      integer (name ++ "." ++ key) (optional ms key (.integer 0))
    let size ← field "pos_size"
    let quoteTotal ← field "native_pc_total"
    let realized ← field "realized_pnl"
    let bids ← field "coin_on_bids"
    let asks ← field "coin_on_asks"
    let funding ← field "funding_index"
    pure (some { key, size, quoteTotal, realized, bids, asks, funding })

def CollateralTerms.ofMembers? (name : String) (ms : Members) :
    Except Fault (Option CollateralTerms) := do
  let mint ← required ms "mint"
  let mint ← label mint
  let feed ← required ms "oracle_symbol"
  let feed ← label feed
  let weight ← required ms "weight"
  let weight ← integer (name ++ ".weight") weight
  let fee ← integer (name ++ ".liq_fee") (optional ms "liq_fee" (.integer 0))
  pure (some { mint, feed, weight, fee })

def MarketTerms.ofMembers? (name : String) (ms : Members) :
    Except Fault (Option MarketTerms) := do
  let symbol ← required ms "symbol"
  let symbol ← label symbol
  let decimals ← required ms "asset_decimals"
  let decimals ← integer (name ++ ".asset_decimals") decimals
  let baseFactor ← required ms "base_imf"
  let baseFactor ← integer (name ++ ".base_imf") baseFactor
  pure (some { symbol, decimals, baseFactor })

def Accrual.ofDocument (name : String) (d : Document) : Except Fault Accrual := do
  let ms ← members name d
  let field (key : String) : Except Fault Int :=
    amount (name ++ "." ++ key) (optional ms key (.integer 1))
  let supply ← field "supply_multiplier"
  let borrow ← field "borrow_multiplier"
  pure { supply, borrow }

def PriceEntry.ofDocument (name : String) (d : Document) : Except Fault PriceEntry := do
  let ms ← members name d
  let symbol ← required ms "symbol"
  let symbol ← label symbol
  let price ← required ms "price"
  let price ← amount (name ++ ".price") price
  pure { symbol, price }

def Account.ofDocument (d : Document) : Except Fault Account := do
  let ms ← members "account" d
  let field {α : Type} (key : String) (read : String → Document → Except Fault α) :
      Except Fault (List α) := list key read (optional ms key .null)
  let balances ← field "collateral" amount
  let positions ← field "positions" (slot Position.ofMembers?)
  pure { balances, positions }

namespace Snapshot

/-- The document of the account: one given beside the snapshot's document stands in for the member
of it, and is screened on its own. None is given by null. -/
def accountDocument (room : Room) (ms : Members) : Document → Except Fault Document
  | .null => required ms "account"
  | given => do
    let own ← given.toMembers
    Document.screen room.calls {} (.mapping own)
    pure given

def ofMembers (room : Room) (ms : Members) (given : Document) : Except Fault Snapshot := do
  Document.screen room.calls {} (.mapping ms)
  let account ← accountDocument room ms given
  let account ← Account.ofDocument account
  let field {α : Type} (key : String) (read : String → Document → Except Fault α) :
      Except Fault (List α) := list key read (optional ms key .null)
  let collaterals ← field "collaterals" (slot CollateralTerms.ofMembers?)
  let markets ← field "perp_markets" (slot MarketTerms.ofMembers?)
  let accruals ← field "borrows" Accrual.ofDocument
  let entries ← field "oracles" PriceEntry.ofDocument
  let marks ← field "mark_prices" amount
  let fundings ← field "funding_indices" integer
  let collateralCount ←
    integer "total_collaterals" (optional ms "total_collaterals" (.integer 0))
  let marketCount ← integer "total_markets" (optional ms "total_markets" (.integer 0))
  let prices := PriceTable.ofEntries entries
  pure {
    account, collaterals, markets, accruals, prices, marks, fundings, collateralCount
    marketCount }

/-- The snapshot that a document describes, with the account given or the document's own. -/
def ofDocument (room : Room) (d given : Document) : Except Fault Snapshot := do
  let ms ← members "snapshot" d
  ofMembers room ms given

end Snapshot
end Solvency
