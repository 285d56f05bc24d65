import Solvency.Text.Basic

/-! The oracle prices, by symbol. A table built from entries is in symbol order, entries of one
symbol in the order given, and a look-up searches by halves for the first entry whose symbol is
not before the one wanted. -/
namespace Solvency

structure PriceEntry where
  symbol : Text
  price : Int
  deriving DecidableEq, Repr

structure PriceTable where
  entries : List PriceEntry := []
  deriving DecidableEq, Repr

/-- Puts an item in front of the first one that it is not after. -/
def insertOrdered {α : Type} (after : α → α → Bool) (a : α) : List α → List α
  | [] => [a]
  | b :: rest => if after a b then b :: insertOrdered after a rest else a :: b :: rest

/-- Items in order, those of equal rank as they came. -/
def sortOrdered {α : Type} (after : α → α → Bool) (xs : List α) : List α :=
  xs.foldr (insertOrdered after) []

namespace PriceTable

def ofEntries (entries : List PriceEntry) : PriceTable :=
  ⟨sortOrdered (fun a b => b.symbol.before a.symbol) entries⟩

def symbols (t : PriceTable) : List Text := t.entries.map PriceEntry.symbol

/-- The place between `lo` and `hi` at which halving stops; the entries before it that were seen
have symbols before the one wanted, the entries seen from it on do not. -/
def place (entries : List PriceEntry) (symbol : Text) (lo hi : Nat) : Nat :=
  if lo < hi then
    let middle := (lo + hi) / 2
    match entries[middle]? with
    | some e =>
      if e.symbol.before symbol then place entries symbol (middle + 1) hi
      else place entries symbol lo middle
    | none => lo
  else lo
termination_by hi - lo

/-- The entry of a symbol; the empty symbol has none. -/
def get? (t : PriceTable) (symbol : Text) : Option PriceEntry :=
  if symbol.isEmpty then none
  else
    match t.entries[place t.entries symbol 0 t.entries.length]? with
    | some e => if e.symbol = symbol then some e else none
    | none => none

end PriceTable
end Solvency
