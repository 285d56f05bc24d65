import Solvency.Proofs.Checked
import Solvency.Proofs.Endings

/-! Faults of checked arithmetic. Results are refused when they leave their range, and the refusal
has a message as long as the refused integer has a numeral. Integers with half the digits of the
longest numeral are short: sums, products and quotients of two of them have one. -/
namespace Solvency

/-- Has at most half the digits of the longest numeral. -/
def Short (n : Int) : Prop := n.natAbs < tenTo (digitLimit / 2)

theorem tenTo_add (m n : Nat) : tenTo (m + n) = tenTo m * tenTo n := Nat.pow_add 10 m n

theorem tenTo_mono {m n : Nat} (le : m ≤ n) : tenTo m ≤ tenTo n :=
  Nat.pow_le_pow_right (by decide) le

theorem tenTo_digitLimit :
    tenTo digitLimit = tenTo (digitLimit / 2) * tenTo (digitLimit / 2) := by
  have halves : digitLimit = digitLimit / 2 + digitLimit / 2 := by decide
  rw [← tenTo_add, ← halves]

namespace Short

variable {a b : Int}

theorem writable (short : Short a) : Writable a :=
  lt_of_lt_of_le short (tenTo_mono (by decide))

theorem mul (left : Short a) (right : Short b) : Writable (a * b) := by
  unfold Writable
  rw [Int.natAbs_mul, tenTo_digitLimit]
  exact Nat.mul_lt_mul'' left right

theorem add (left : Short a) (right : Short b) : Writable (a + b) := by
  have two : 2 ≤ tenTo (digitLimit / 2) := tenTo_mono (m := 1) (by decide) |>.trans' (by decide)
  have doubled : 2 * tenTo (digitLimit / 2) ≤ tenTo digitLimit := by
    rw [tenTo_digitLimit]
    exact Nat.mul_le_mul_right _ two
  have bound := Int.natAbs_add_le a b
  unfold Short at left right
  unfold Writable
  omega

theorem neg (short : Short a) : Short (-a) := by
  unfold Short
  rw [Int.natAbs_neg]
  exact short

theorem sub (left : Short a) (right : Short b) : Writable (a - b) := by
  rw [sub_eq_add_neg]
  exact left.add right.neg

theorem max (left : Short a) (right : Short b) : Short (max a b) := by
  rcases max_choice a b with same | same <;> rw [same]
  · exact left
  · exact right

theorem natAbs (short : Short a) : Short (a.natAbs : Int) := by
  unfold Short
  rw [Int.natAbs_natCast]
  exact short

end Short

theorem short_of_lt {n : Int} (bound : n.natAbs < 1000000000000000000000000000000000000000) :
    Short n := by
  have digits : 1000000000000000000000000000000000000000 = tenTo 39 := rfl
  rw [digits] at bound
  exact lt_of_lt_of_le bound (tenTo_mono (by decide))

theorem short_zero : Short 0 := short_of_lt (by decide)

theorem short_oneWhole : Short oneWhole := short_of_lt (by decide)

theorem Width.Holds.short {w : Width} {n : Int} (held : w.Holds n) : Short n := by
  apply short_of_lt
  cases w <;> simp only [Width.Holds, Width.lo, Width.hi] at held <;> omega

/-- A result within a range is short. -/
theorem Ends.short {P : Fault → Prop} {w : Width} {x : Except Fault Int} (ends : Ends P w.Holds x) :
    Ends P Short x := ends.results fun _ => Width.Holds.short

namespace Writable

variable {a b : Int}

theorem neg (writable : Writable a) : Writable (-a) := by
  unfold Writable
  rw [Int.natAbs_neg]
  exact writable

theorem ediv (writable : Writable a) : Writable (a / b) :=
  (Int.natAbs_ediv_le_natAbs a b).trans_lt writable

theorem fdiv (writable : Writable a) : Writable (a.fdiv b) :=
  (Int.natAbs_fdiv_le_natAbs a b).trans_lt writable

end Writable

/-- A result out of range; one without a numeral only if the numbers it comes from are not known to
be short. -/
inductive ArithmeticFault (short : Prop) : Fault → Prop where
  | overflow (w : Width) (v : Int) : ArithmeticFault short (.margin (.overflow w v))
  | unwritable (long : ¬ short) : ArithmeticFault short .digitLimit

variable {short : Prop}

namespace Width

variable {w : Width} {a b v : Int}

theorem check_ends (writable : short → Writable v) :
    Ends (ArithmeticFault short) w.Holds (w.check v) := by
  unfold check
  split
  · rename_i held
    exact held
  · refine Ends.fail (.overflow w v) fun refused => .unwritable fun holds => refused ?_
    simpa [Fault.cited, MarginFault.cited] using writable holds

/-- A result without a numeral is refused without a finding. -/
theorem check_unwritable (long : ¬ Writable v) : w.check v = .error .digitLimit := by
  have out : ¬ w.Holds v := fun held => long held.short.writable
  simp [check, out, fail, Fault.cited, MarginFault.cited, long]

theorem check_overflow (out : ¬ w.Holds v) (writable : Writable v) :
    w.check v = .error (.margin (.overflow w v)) := by
  simp [check, out, fail, Fault.cited, MarginFault.cited, writable]

theorem add_ends (left : short → Short a) (right : short → Short b) :
    Ends (ArithmeticFault short) w.Holds (w.add a b) :=
  check_ends fun holds => (left holds).add (right holds)

theorem sub_ends (left : short → Short a) (right : short → Short b) :
    Ends (ArithmeticFault short) w.Holds (w.sub a b) :=
  check_ends fun holds => (left holds).sub (right holds)

theorem mul_ends (left : short → Short a) (right : short → Short b) :
    Ends (ArithmeticFault short) w.Holds (w.mul a b) :=
  check_ends fun holds => (left holds).mul (right holds)

theorem div_ends (left : short → Short a) (nonzero : b ≠ 0) :
    Ends (ArithmeticFault short) w.Holds (w.div a b) := by
  rw [div, if_neg nonzero]
  exact check_ends fun holds => (left holds).writable.fdiv

theorem ceilDiv_ends (left : short → Short a) (nonzero : b ≠ 0) :
    Ends (ArithmeticFault short) w.Holds (w.ceilDiv a b) := by
  rw [ceilDiv, if_neg nonzero]
  exact check_ends fun holds => (left holds).neg.writable.fdiv.neg

theorem sum_ends {xs : List Int} (items : short → ∀ x ∈ xs, Short x) :
    Ends (ArithmeticFault short) Short (w.sum xs) := by
  refine Ends.foldlM short_zero fun total x member partial_short => ?_
  have added : Ends (ArithmeticFault short) w.Holds (w.add total x) :=
    add_ends (fun _ => partial_short) fun holds => items holds x member
  exact added.short

end Width

namespace Fixed

variable {a b n x : Int}

theorem scale_short : Short scale := short_of_lt (by decide)

theorem ofInt_ends (integer : short → Short n) :
    Ends (ArithmeticFault short) Short (ofInt n) := by
  have lifted : Ends (ArithmeticFault short) Width.i128.Holds (Width.i128.mul n scale) :=
    Width.mul_ends integer fun _ => scale_short
  exact lifted.short

theorem mul_ends (left : short → Short a) (right : short → Short b) :
    Ends (ArithmeticFault short) Short (Fixed.mul a b) := by
  have product : Ends (ArithmeticFault short) Width.i128.Holds (Fixed.mul a b) :=
    Width.check_ends fun holds => ((left holds).mul (right holds)).ediv
  exact product.short

theorem mulCeil_ends (left : short → Short a) (right : short → Short b) :
    Ends (ArithmeticFault short) Short (mulCeil a b) := by
  have product : Ends (ArithmeticFault short) Width.i128.Holds (mulCeil a b) :=
    Width.check_ends fun holds => ((left holds).mul (right holds)).neg.ediv.neg
  exact product.short

theorem ceil_ends (short_value : short → Short x) :
    Ends (ArithmeticFault short) Short (ceil x) := by
  have units : Ends (ArithmeticFault short) Width.i64.Holds (ceil x) :=
    Width.check_ends fun holds => (short_value holds).neg.writable.ediv.neg
  exact units.short

theorem floor_ends (short_value : short → Short x) :
    Ends (ArithmeticFault short) Short (floor x) := by
  have units : Ends (ArithmeticFault short) Width.i64.Holds (floor x) :=
    Width.check_ends fun holds => (short_value holds).writable.ediv
  exact units.short

end Fixed

namespace Factor

variable {base requirement weight total : Int}

theorem maintenance_ends (factor : short → Short base) :
    Ends (ArithmeticFault short) Short (maintenance base) := by
  refine (Width.check_ends fun holds => (factor holds).writable).bind fun base held => ?_
  exact Ends.short (Width.div_ends (fun _ => held.short) (by decide))

theorem cancel_ends (factor : short → Short base) :
    Ends (ArithmeticFault short) Short (cancel base) := by
  have five : Short 5 := short_of_lt (by decide)
  refine (Width.mul_ends factor fun _ => five).bind fun scaled held => ?_
  exact Ends.short (Width.div_ends (fun _ => held.short) (by decide))

/-- A cancel factor is five eighths of the base factor, but is formed from five times the base factor,
which is held to the range of factors too. -/
def CancelOverflow (base : Int) (f : Fault) : Prop :=
  Width.u16.hi < base * 5 ∧ f = .margin (.overflow .u16 (base * 5))

theorem cancel_ends_overflow (held : Width.u16.Holds base) :
    Ends (CancelOverflow base) (fun _ => base * 5 ≤ Width.u16.hi) (cancel base) := by
  rcases le_or_gt (base * 5) Width.u16.hi with fits | large
  · have scaled : Width.u16.Holds (base * 5) := ⟨mul_nonneg held.1 (by decide), fits⟩
    rw [cancel_eq_ok.mpr ⟨scaled, rfl⟩]
    exact fits
  · have out : ¬ Width.u16.Holds (base * 5) := fun scaled => large.not_ge scaled.2
    have five : Short 5 := short_of_lt (by decide)
    rw [cancel, Width.mul, Width.check_overflow out (held.short.mul five)]
    exact ⟨large, rfl⟩

theorem spot_ends (required : short → Short requirement) (nonzero : weight ≠ 0) :
    Ends (ArithmeticFault short) Short (spot requirement weight) := by
  refine (Width.ceilDiv_ends required nonzero).bind fun ratio held => ?_
  exact Ends.short (Width.sub_ends (fun _ => held.short) fun _ => short_oneWhole)

theorem products_ends {terms : List (Int × Int)} (start : Short total)
    (items : ∀ t ∈ terms, Short t.1 ∧ Short t.2) :
    Ends (ArithmeticFault short) Short (products total terms) := by
  induction terms generalizing total with
  | nil => exact start
  | cons term rest ih =>
    obtain ⟨⟨factor, notional⟩, others⟩ := List.forall_mem_cons.mp items
    refine (Width.mul_ends (fun _ => factor) fun _ => notional).bind fun product held => ?_
    refine (Width.add_ends (fun _ => start) fun _ => held.short).bind fun total added => ?_
    exact ih added.short others

theorem dot_ends {factors notionals : List Int} (paired : factors.length = notionals.length)
    (short_factors : ∀ f ∈ factors, Short f) (short_notionals : ∀ n ∈ notionals, Short n) :
    Ends (ArithmeticFault short) Short (dot factors notionals) := by
  rw [dot, if_neg (not_not.mpr paired)]
  refine products_ends short_zero fun t member => ?_
  obtain ⟨factor, notional⟩ := List.of_mem_zip member
  exact ⟨short_factors _ factor, short_notionals _ notional⟩

end Factor
end Solvency
