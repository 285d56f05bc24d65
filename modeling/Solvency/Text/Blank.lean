import Solvency.Text.Basic

/-! White space: the Unicode property together with the four separators U+001C to U+001F. -/
namespace Solvency

/-- Closed ranges of code points, ascending and apart. -/
def blankRanges : List (Nat × Nat) :=
  [(0x09, 0x0D), (0x1C, 0x20), (0x85, 0x85), (0xA0, 0xA0), (0x1680, 0x1680), (0x2000, 0x200A),
   (0x2028, 0x2029), (0x202F, 0x202F), (0x205F, 0x205F), (0x3000, 0x3000)]

def inRanges (ranges : List (Nat × Nat)) (n : Nat) : Bool :=
  ranges.any fun r => r.1 ≤ n && n ≤ r.2

def CodePoint.isBlank (p : CodePoint) : Bool := inRanges blankRanges p.number

namespace Text

/-- A text without the white space at its two ends. -/
def trim (t : Text) : Text :=
  ((t.dropWhile CodePoint.isBlank).reverse.dropWhile CodePoint.isBlank).reverse

def isBlank (t : Text) : Bool := t.all CodePoint.isBlank

end Text
end Solvency
