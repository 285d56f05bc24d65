import Solvency.Binary64.Basic

/-! The shortest decimal that reads back to a float. On each decimal grid, coarsest first, the two
neighbours of the value are tested against the interval of reals that round to it; the first grid
with a hit wins, and of two hits the nearer, or on a tie the even one. -/
namespace Solvency.Binary64

/-- A positive decimal, `digits * 10 ^ exponent`. -/
structure Decimal where
  digits : Nat
  exponent : Int
  deriving DecidableEq, Repr

/-- Compare `a * 10 ^ i` with `n * 2 ^ j`. -/
def compareScaled (a : Nat) (i : Int) (n : Nat) (j : Int) : Ordering :=
  compare (a * tenTo i.toNat * twoTo (-j).toNat) (n * twoTo j.toNat * tenTo (-i).toNat)

/-- Below a power of two the next float is half as far away as above it. -/
def narrowBelow (x : Binary64) : Bool := x.fraction == 0 && decide (1 < x.exponentField)

/-- The decimal lies among the reals that round to the magnitude of `x`: up to half the gap to
either neighbour, the ends included when the significand is even. -/
def readsBack (x : Binary64) (d : Decimal) : Bool :=
  let low := if x.narrowBelow then 4 * x.significand - 1 else 4 * x.significand - 2
  let high := 4 * x.significand + 2
  let ends := x.significand % 2 == 0
  let below := compareScaled d.digits d.exponent low (x.scale - 2)
  let above := compareScaled d.digits d.exponent high (x.scale - 2)
  (below == .gt || (ends && below == .eq)) && (above == .lt || (ends && above == .eq))

/-- The least `k` from `start` on, within `steps`, with the magnitude of `x` below `10 ^ k`. -/
def magnitudeFrom (x : Binary64) : Nat → Int → Int
  | 0, k => k
  | steps + 1, k =>
    if compareScaled 1 k x.significand x.scale == .gt then k else magnitudeFrom x steps (k + 1)

def magnitude (x : Binary64) : Int :=
  let binary := (Nat.log2 x.significand : Int) + x.scale
  magnitudeFrom x 4 (binary * 30103 / 100000 - 1)

/-- The greatest multiple of `10 ^ e` that does not exceed the magnitude of `x`. -/
def gridFloor (x : Binary64) (e : Int) : Nat :=
  (x.significand * twoTo x.scale.toNat * tenTo (-e).toNat) / (twoTo (-x.scale).toNat * tenTo e.toNat)

def onGrid (x : Binary64) (e : Int) : Option Decimal :=
  let down : Decimal := ⟨x.gridFloor e, e⟩
  let up : Decimal := ⟨x.gridFloor e + 1, e⟩
  match x.readsBack down, x.readsBack up with
  | false, false => none
  | true, false => some down
  | false, true => some up
  | true, true =>
    match compareScaled (down.digits + up.digits) e (2 * x.significand) x.scale with
    | .gt => some down
    | .lt => some up
    | .eq => some (if down.digits % 2 == 0 then down else up)

/-- The exact decimal of a float, for a value that no grid of seventeen digits reaches. -/
def exactDecimal (x : Binary64) : Decimal :=
  ⟨x.significand * twoTo x.scale.toNat * Nat.pow 5 (-x.scale).toNat, -((-x.scale).toNat : Int)⟩

def stripZeros : Nat → Decimal → Decimal
  | 0, d => d
  | fuel + 1, d =>
    if d.digits % 10 == 0 && d.digits != 0 then stripZeros fuel ⟨d.digits / 10, d.exponent + 1⟩ else d

/-- The shortest decimal of a finite float other than zero. -/
def shortest (x : Binary64) : Decimal :=
  let k := x.magnitude
  let found := (List.range 17).findSome? fun (n : Nat) => x.onGrid (k - 1 - n)
  stripZeros 400 (found.getD x.exactDecimal)

end Solvency.Binary64
