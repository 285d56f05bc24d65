import Solvency.Numeral

/-! Binary floating point of 64 bits, as bits. Floats are read, named in messages, compared as
mapping keys and otherwise refused, so no arithmetic on them is needed beyond reading. -/
namespace Solvency

structure Binary64 where
  bits : UInt64
  deriving DecidableEq, Repr

namespace Binary64

def isNegative (x : Binary64) : Bool := x.bits >>> 63 != 0

def exponentField (x : Binary64) : Nat := ((x.bits >>> 52) &&& 0x7FF).toNat

def fraction (x : Binary64) : Nat := (x.bits &&& 0xFFFFFFFFFFFFF).toNat

def isFinite (x : Binary64) : Bool := x.exponentField != 0x7FF

def isNaN (x : Binary64) : Bool := !x.isFinite && x.fraction != 0

/-- The magnitude of a finite value is `significand * 2 ^ scale`. -/
def significand (x : Binary64) : Nat :=
  if x.exponentField = 0 then x.fraction else twoTo 52 + x.fraction

def scale (x : Binary64) : Int :=
  if x.exponentField = 0 then -1074 else (x.exponentField : Int) - 1075

def signed (x : Binary64) : Int :=
  if x.isNegative then -(x.significand : Int) else x.significand

/-- A finite value as a quotient of an integer and a power of two. -/
def quotient (x : Binary64) : Int × Nat :=
  (x.signed * twoTo x.scale.toNat, twoTo (-x.scale).toNat)

/-- Equality as keys: the same bits or the same number, so that both zeros are one key. -/
def sameKey (x y : Binary64) : Bool :=
  x.bits == y.bits || (x.isFinite && y.isFinite && x.quotient == y.quotient)

def isInteger (x : Binary64) (n : Int) : Bool :=
  x.isFinite && x.quotient.1 == n * x.quotient.2

def infinity : Binary64 := ⟨0x7FF0000000000000⟩

def nan : Binary64 := ⟨0x7FF8000000000000⟩

def negated (x : Binary64) : Binary64 := ⟨x.bits ^^^ 0x8000000000000000⟩

/-- The nearest value to `m * 10 ^ e`. Beyond 10^310 every number rounds to infinity, and below
10^-330 to zero. -/
def ofDecimal (m : Nat) (e : Int) : Binary64 :=
  let leading := (Nat.toDigits 10 m).length + e
  if m = 0 ∨ leading < -330 then ⟨0⟩
  else if 310 < leading then infinity
  else ⟨(Float.ofScientific m (decide (e < 0)) e.natAbs).toBits⟩

end Binary64
end Solvency
