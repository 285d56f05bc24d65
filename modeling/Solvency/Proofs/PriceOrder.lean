import Solvency.Proofs.KeyOrder

/-! Price tables in symbol order. A table built from entries is ordered, holds these entries and no
others, and keeps the entries of one symbol in the order given; one that is ordered stays as it is. -/
namespace Solvency

namespace PriceTable

/-- No entry stands behind one with a later symbol. -/
def Ordered (t : PriceTable) : Prop :=
  t.entries.Pairwise fun a b => b.symbol.before a.symbol = false

theorem ordered_ofEntries (entries : List PriceEntry) : (ofEntries entries).Ordered :=
  pairwise_sortOrdered PriceEntry.symbol entries

/-- The entries of one symbol come in the order given. -/
theorem filter_ofEntries (entries : List PriceEntry) (symbol : Text) :
    (ofEntries entries).entries.filter (fun e => e.symbol = symbol) =
      entries.filter fun e => e.symbol = symbol := by
  apply filter_sortOrdered
  intro a b first second
  rw [of_decide_eq_true first, of_decide_eq_true second]
  exact Text.not_before_iff.mpr le_rfl

theorem ofEntries_of_ordered {t : PriceTable} (ordered : t.Ordered) : ofEntries t.entries = t := by
  rw [ofEntries, sortOrdered_eq_insertionSort, ordered.insertionSort_eq]

end PriceTable
end Solvency
