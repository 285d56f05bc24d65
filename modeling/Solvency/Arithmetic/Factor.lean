import Solvency.Arithmetic.Checked

/-! Margin factors, in permille of a notional, and their weighted sums. -/
namespace Solvency

/-- One whole in the scale of weights, fees and margin factors. -/
def oneWhole : Int := 1000

namespace Factor

/-- Half the base factor. -/
def maintenance (base : Int) : Except Fault Int := do
  let base ← Width.u16.check base
  Width.u16.div base 2

/-- Five eighths of the base factor. -/
def cancel (base : Int) : Except Fault Int := do
  let scaled ← Width.u16.mul base 5
  Width.u16.div scaled 8

/-- The factor of a spot borrow: the required ratio, itself in permille of permille, over the
weight, less one whole. -/
def spot (requirement weight : Int) : Except Fault Int := do
  let ratio ← Width.i64.ceilDiv requirement weight
  Width.u16.sub ratio oneWhole

/-- The sum of products from left to right, each product and each partial sum checked. -/
def products (total : Int) : List (Int × Int) → Except Fault Int
  | [] => .ok total
  | (factor, notional) :: rest => do
    let product ← Width.i64.mul factor notional
    let total ← Width.i64.add total product
    products total rest

def dot (factors notionals : List Int) : Except Fault Int :=
  if factors.length ≠ notionals.length then
    fail (.lengths factors.length notionals.length)
  else products 0 (factors.zip notionals)

end Factor
end Solvency
