import Solvency.Proofs.Overflow

/-! Weighted sums of numbers that are not negative. No product and no partial sum exceeds the total, so
that nothing but the total decides whether there is a sum: neither the order of the terms nor where
they are parted. A sum that is refused is refused for the first product or partial sum out of range,
which its fault names if it has a numeral. -/
namespace Solvency.Factor

variable {factors notionals factors' notionals' : List Int} {terms terms' : List (Int × Int)}
  {start v r : Int}

/-- The exact sum of products. -/
def total (terms : List (Int × Int)) : Int := (terms.map fun t => t.1 * t.2).sum

@[simp] theorem total_nil : total [] = 0 := rfl

@[simp] theorem total_cons (t : Int × Int) (terms : List (Int × Int)) :
    total (t :: terms) = t.1 * t.2 + total terms := by simp [total]

@[simp] theorem total_append (terms terms' : List (Int × Int)) :
    total (terms ++ terms') = total terms + total terms' := by simp [total]

theorem total_of_perm (perm : terms.Perm terms') : total terms = total terms' :=
  (perm.map _).sum_eq

/-- Every product has a numeral. -/
def Numerals (terms : List (Int × Int)) : Prop := ∀ t ∈ terms, Writable (t.1 * t.2)

/-- No product is negative. -/
def Nonneg (terms : List (Int × Int)) : Prop := ∀ t ∈ terms, 0 ≤ t.1 * t.2

theorem total_nonneg (nonneg : Nonneg terms) : 0 ≤ total terms :=
  List.sum_nonneg (List.forall_mem_map.mpr nonneg)

theorem nonneg_zip (factor : ∀ f ∈ factors, 0 ≤ f) (notional : ∀ n ∈ notionals, 0 ≤ n) :
    Nonneg (factors.zip notionals) := fun _ member =>
  mul_nonneg (factor _ (List.of_mem_zip member).1) (notional _ (List.of_mem_zip member).2)

/-- Of the products, and of the sums that begin with `start`, this is the first out of range. -/
def FirstExcess (start : Int) (terms : List (Int × Int)) (v : Int) : Prop :=
  ∃ before t after, terms = before ++ t :: after ∧ start + total before ≤ Width.i64.hi ∧
    Width.i64.hi < v ∧
    (v = t.1 * t.2 ∨ t.1 * t.2 ≤ Width.i64.hi ∧ v = start + total before + t.1 * t.2)

/-- What the number is refused with: a fault that names it, if it has a numeral. -/
def refusal (v : Int) : Fault := if Writable v then .margin (.overflow .i64 v) else .digitLimit

/-- The sum is refused for a result out of range. -/
def Overflows (x : Except Fault Int) : Prop := ∃ v, x = .error (.margin (.overflow .i64 v))

section Excess

theorem lo_nonpos : Width.i64.lo ≤ 0 := by decide

/-- An excess that is a sum has two parts in range. -/
theorem FirstExcess.writable (excess : FirstExcess start terms v) (numerals : Numerals terms) :
    Writable v := by
  obtain ⟨before, t, after, rfl, fits, out, rfl | ⟨small, rfl⟩⟩ := excess
  · exact numerals t (by simp)
  · refine Short.writable (short_of_lt ?_)
    simp only [Width.hi] at fits small out
    omega

/-- An excess further on is one of the whole. -/
theorem FirstExcess.cons {t : Int × Int} (excess : FirstExcess (start + t.1 * t.2) terms v) :
    FirstExcess start (t :: terms) v := by
  obtain ⟨before, u, after, rfl, fits, out, kind⟩ := excess
  refine ⟨t :: before, u, after, rfl, ?_, out, ?_⟩
  · rwa [total_cons, ← add_assoc]
  · rwa [total_cons, ← add_assoc]

theorem check_of_lt (out : Width.i64.hi < v) : Width.i64.check v = .error (refusal v) := by
  unfold refusal
  split
  · rename_i writable
    exact Width.check_overflow (fun held => out.not_ge held.2) writable
  · rename_i long
    exact Width.check_unwritable long

/-- A check of a number out of range is not got over. -/
theorem check_bind_of_lt {α : Type} (out : Width.i64.hi < v) (f : Int → Except Fault α) :
    Width.i64.check v >>= f = .error (refusal v) := by
  rw [check_of_lt out]
  rfl

/-- A sum whose total is out of range is refused for the first excess. -/
theorem products_of_lt (nonneg : Nonneg terms) (begun : 0 ≤ start) (fits : start ≤ Width.i64.hi)
    (out : Width.i64.hi < start + total terms) :
    ∃ v, FirstExcess start terms v ∧ products start terms = .error (refusal v) := by
  induction terms generalizing start with
  | nil =>
    rw [total_nil, add_zero] at out
    exact absurd fits out.not_ge
  | cons t rest ih =>
    obtain ⟨product, others⟩ := List.forall_mem_cons.mp nonneg
    by_cases large : Width.i64.hi < t.1 * t.2
    · refine ⟨t.1 * t.2, ⟨[], t, rest, rfl, ?_, large, .inl rfl⟩, check_bind_of_lt large _⟩
      rwa [total_nil, add_zero]
    have formed : Width.i64.mul t.1 t.2 = .ok (t.1 * t.2) :=
      Width.mul_eq_ok.mpr ⟨⟨lo_nonpos.trans product, not_lt.mp large⟩, rfl⟩
    rw [products, formed, ok_bind]
    by_cases beyond : Width.i64.hi < start + t.1 * t.2
    · refine ⟨start + t.1 * t.2, ⟨[], t, rest, rfl, ?_, beyond, .inr ⟨not_lt.mp large, ?_⟩⟩,
        check_bind_of_lt beyond _⟩
      · rwa [total_nil, add_zero]
      · rw [total_nil, add_zero]
    · have sum_nonneg : 0 ≤ start + t.1 * t.2 := add_nonneg begun product
      have added : Width.i64.add start (t.1 * t.2) = .ok (start + t.1 * t.2) :=
        Width.add_eq_ok.mpr ⟨⟨lo_nonpos.trans sum_nonneg, not_lt.mp beyond⟩, rfl⟩
      rw [total_cons, ← add_assoc] at out
      obtain ⟨v, excess, refused⟩ := ih others sum_nonneg (not_lt.mp beyond) out
      exact ⟨v, excess.cons, by rw [added, ok_bind, refused]⟩

end Excess

/-- The sum is given exactly if the total is in range. Where every product has a numeral, the sum is
refused for a result out of range exactly if the total is out of range. -/
structure EndsBy (terms : List (Int × Int)) (x : Except Fault Int) : Prop where
  ok (r : Int) : x = .ok r ↔ total terms ≤ Width.i64.hi ∧ r = total terms
  overflows : Numerals terms → (Overflows x ↔ Width.i64.hi < total terms)

theorem EndsBy.of_perm {x : Except Fault Int} (ends : EndsBy terms x) (perm : terms.Perm terms') :
    EndsBy terms' x where
  ok r := total_of_perm perm ▸ ends.ok r
  overflows numerals := total_of_perm perm ▸
    ends.overflows fun t member => numerals t (perm.mem_iff.mp member)

/-- Both give the same result, or none; where every product has a numeral, both are refused for a
result out of range, or neither is. -/
structure Agree (terms : List (Int × Int)) (x y : Except Fault Int) : Prop where
  ok (r : Int) : x = .ok r ↔ y = .ok r
  overflows : Numerals terms → (Overflows x ↔ Overflows y)

theorem EndsBy.agree {x y : Except Fault Int} (left : EndsBy terms x) (right : EndsBy terms y) :
    Agree terms x y where
  ok r := (left.ok r).trans (right.ok r).symm
  overflows numerals := (left.overflows numerals).trans (right.overflows numerals).symm

/-- A sum that is given while the total is in range, and refused for a number when it is not, ends by
the total. -/
theorem endsBy_of {x : Except Fault Int} (fits : total terms ≤ Width.i64.hi → x = .ok (total terms))
    (out : Width.i64.hi < total terms →
      ∃ v, (Numerals terms → Writable v) ∧ x = .error (refusal v)) :
    EndsBy terms x := by
  rcases le_or_gt (total terms) Width.i64.hi with small | large
  · have given := fits small
    exact {
      ok r := by simp [given, small, eq_comm]
      overflows _ := by simp [given, Overflows, small] }
  · obtain ⟨v, writable, refused⟩ := out large
    refine ⟨fun r => by simp [refused, large.not_ge], fun numerals => ?_⟩
    have named : refusal v = .margin (.overflow .i64 v) := if_pos (writable numerals)
    exact iff_of_true ⟨v, by rw [refused, named]⟩ large

section Sums

variable (paired : factors.length = notionals.length) (nonneg : Nonneg (factors.zip notionals))

include paired nonneg

theorem dot_of_le (fits : total (factors.zip notionals) ≤ Width.i64.hi) :
    dot factors notionals = .ok (total (factors.zip notionals)) :=
  dot_of_nonneg paired nonneg fits

theorem dot_of_lt (out : Width.i64.hi < total (factors.zip notionals)) :
    ∃ v, FirstExcess 0 (factors.zip notionals) v ∧ dot factors notionals = .error (refusal v) := by
  rw [dot, if_neg (not_not.mpr paired)]
  exact products_of_lt nonneg le_rfl (by decide) (by rwa [zero_add])

theorem dot_endsBy : EndsBy (factors.zip notionals) (dot factors notionals) := by
  refine endsBy_of (dot_of_le paired nonneg) fun out => ?_
  obtain ⟨v, excess, refused⟩ := dot_of_lt paired nonneg out
  exact ⟨v, excess.writable, refused⟩

end Sums

/-- The terms in two parts, each with factors and notionals of its own. -/
structure Parted (factors notionals factors' notionals' : List Int) (terms : List (Int × Int)) :
    Prop where
  first : factors.length = notionals.length
  second : factors'.length = notionals'.length
  perm : (factors.zip notionals ++ factors'.zip notionals').Perm terms

namespace Parted

variable (parted : Parted factors notionals factors' notionals' terms) (nonneg : Nonneg terms)

include parted

theorem total_eq :
    total (factors.zip notionals) + total (factors'.zip notionals') = total terms := by
  rw [← total_append, total_of_perm parted.perm]

include nonneg

/-- One sum over the parts one after the other. -/
theorem joined_endsBy : EndsBy terms (dot (factors ++ factors') (notionals ++ notionals')) := by
  have paired : (factors ++ factors').length = (notionals ++ notionals').length := by
    rw [List.length_append, List.length_append, parted.first, parted.second]
  have perm : ((factors ++ factors').zip (notionals ++ notionals')).Perm terms := by
    rw [List.zip_append parted.first]
    exact parted.perm
  exact (dot_endsBy paired fun t member => nonneg t (perm.mem_iff.mp member)).of_perm perm

/-- The sums over the two parts, added up. -/
theorem added_endsBy : EndsBy terms (do
    let first ← dot factors notionals
    let second ← dot factors' notionals'
    Width.i64.add first second) := by
  obtain ⟨nonneg_first, nonneg_second⟩ := List.forall_mem_append.mp fun t member =>
    nonneg t (parted.perm.mem_iff.mp member)
  have least := total_nonneg nonneg_first
  have least' := total_nonneg nonneg_second
  have sum := parted.total_eq
  by_cases large : Width.i64.hi < total (factors.zip notionals)
  · refine endsBy_of (fun fits => by omega) fun _ => ?_
    obtain ⟨v, excess, refused⟩ := dot_of_lt parted.first nonneg_first large
    refine ⟨v, fun numerals => excess.writable fun t member => ?_, by rw [refused]; rfl⟩
    exact numerals t (parted.perm.mem_iff.mp (List.mem_append_left _ member))
  rw [dot_of_le parted.first nonneg_first (not_lt.mp large), ok_bind]
  by_cases large' : Width.i64.hi < total (factors'.zip notionals')
  · refine endsBy_of (fun fits => by omega) fun _ => ?_
    obtain ⟨v, excess, refused⟩ := dot_of_lt parted.second nonneg_second large'
    refine ⟨v, fun numerals => excess.writable fun t member => ?_, by rw [refused]; rfl⟩
    exact numerals t (parted.perm.mem_iff.mp (List.mem_append_right _ member))
  rw [dot_of_le parted.second nonneg_second (not_lt.mp large'), ok_bind]
  refine endsBy_of (fun fits => ?_) fun out => ⟨_, fun _ => ?_, check_of_lt (sum ▸ out)⟩
  · rw [← sum] at fits ⊢
    exact Width.add_eq_ok.mpr ⟨⟨lo_nonpos.trans (add_nonneg least least'), fits⟩, rfl⟩
  · refine Short.writable (short_of_lt ?_)
    simp only [Width.hi] at large large'
    omega

end Parted

/-- The weighted sum of numbers that are not negative is their exact sum of products if that is in range,
and otherwise refused for the first product or partial sum that is not. The order of the terms does not
matter, nor does a division into two parts, whether they are joined before the sum is taken or are
summed up each by itself. Only a product without a numeral may be refused in another way than as a
result out of range. -/
theorem dot_ends_by_total (factors notionals : List Int)
    (paired : factors.length = notionals.length) (factor : ∀ f ∈ factors, 0 ≤ f)
    (notional : ∀ n ∈ notionals, 0 ≤ n) :
    EndsBy (factors.zip notionals) (dot factors notionals) ∧
    (Width.i64.hi < total (factors.zip notionals) →
      ∃ v, FirstExcess 0 (factors.zip notionals) v ∧ dot factors notionals = .error (refusal v)) ∧
    (∀ factors' notionals', factors'.length = notionals'.length →
      (factors'.zip notionals').Perm (factors.zip notionals) →
      Agree (factors.zip notionals) (dot factors' notionals') (dot factors notionals)) ∧
    ∀ perp notionals₁ spot notionals₂,
      Parted perp notionals₁ spot notionals₂ (factors.zip notionals) →
      Agree (factors.zip notionals) (dot (perp ++ spot) (notionals₁ ++ notionals₂))
        (dot factors notionals) ∧
      Agree (factors.zip notionals)
        (do
          let first ← dot perp notionals₁
          let second ← dot spot notionals₂
          Width.i64.add first second)
        (dot factors notionals) := by
  have nonneg := nonneg_zip factor notional
  have whole := dot_endsBy paired nonneg
  refine ⟨whole, dot_of_lt paired nonneg, ?_, ?_⟩
  · intro factors' notionals' paired' perm
    have same := dot_endsBy paired' fun t member => nonneg t (perm.mem_iff.mp member)
    exact (same.of_perm perm).agree whole
  · intro perp notionals₁ spot notionals₂ parted
    exact ⟨(parted.joined_endsBy nonneg).agree whole, (parted.added_endsBy nonneg).agree whole⟩

/-- A total just in range: no partial sum of it is out of range in whatever order. -/
theorem dot_ends_by_total_greatest :
    (∀ f ∈ [3, 1], (0 : Int) ≤ f) ∧ (∀ n ∈ [3074457345618258602, 1], (0 : Int) ≤ n) ∧
    dot [3, 1] [3074457345618258602, 1] = .ok Width.i64.hi ∧
    dot [1, 3] [1, 3074457345618258602] = .ok Width.i64.hi := by
  have factor : ∀ f ∈ [3, 1], (0 : Int) ≤ f := by decide
  have notional : ∀ n ∈ [3074457345618258602, 1], (0 : Int) ≤ n := by decide
  obtain ⟨ends, _, reordered, _⟩ :=
    dot_ends_by_total [3, 1] [3074457345618258602, 1] rfl factor notional
  have given := (ends.ok Width.i64.hi).mpr ⟨by decide, by decide⟩
  have swapped := reordered [1, 3] [1, 3074457345618258602] rfl (.swap _ _ _)
  exact ⟨factor, notional, given, (swapped.ok _).mpr given⟩

/-- A total out of range is not always refused as such: a product may have no numeral. -/
theorem not_dot_overflows :
    ¬ ∀ factors notionals : List Int, factors.length = notionals.length →
      (∀ f ∈ factors, 0 ≤ f) → (∀ n ∈ notionals, 0 ≤ n) →
      Width.i64.hi < total (factors.zip notionals) → Overflows (dot factors notionals) := by
  intro overflows
  have nonneg : ∀ n ∈ [(tenTo 2200 : Int)], 0 ≤ n :=
    List.forall_mem_singleton.mpr (Int.natCast_nonneg _)
  have long : ¬ Writable ((tenTo 2200 : Int) * tenTo 2200) := by
    rw [← Int.natCast_mul, ← tenTo_add, Writable, Int.natAbs_natCast]
    exact not_lt.mpr (tenTo_mono (by decide))
  have large : Width.i64.hi < (tenTo 2200 : Int) * tenTo 2200 := by
    by_contra small
    refine long (Width.Holds.short (w := .i64) ⟨?_, not_lt.mp small⟩).writable
    exact lo_nonpos.trans (by positivity)
  have out : Width.i64.hi < total ([(tenTo 2200 : Int)].zip [(tenTo 2200 : Int)]) := by
    rw [List.zip_cons_cons, List.zip_nil_left, total_cons, total_nil, add_zero]
    exact large
  obtain ⟨v, refused⟩ := overflows _ _ rfl nonneg nonneg out
  have ended : dot [(tenTo 2200 : Int)] [(tenTo 2200 : Int)] = .error (refusal _) :=
    check_bind_of_lt large _
  rw [ended, refusal, if_neg long] at refused
  cases refused

end Solvency.Factor
