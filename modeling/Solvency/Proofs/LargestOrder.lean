import Mathlib.Order.Bounds.Basic
import Solvency.Proofs.AssessmentFaults

/-! The market of the largest resting orders. Running through the active positions keeps the last of
the greatest values seen, so that the ranking gives the last market whose value no other one exceeds,
and none where that value is zero. It finds no position only where no active slot holds one. -/
namespace Solvency

/-- The value of the larger side of the resting orders in a market. -/
def Exact.resting (s : Snapshot) (x : Nat × Position) : Int :=
  max x.2.bids x.2.asks * (Exact.market s x.1).mark

/-- Of values by index, one that no other exceeds and that none of a later index equals. -/
structure IsLastGreatest (values : List (Nat × Int)) (x : Nat × Int) : Prop where
  member : x ∈ values
  greatest : ∀ y ∈ values, y.2 ≤ x.2
  last : ∀ y ∈ values, y.2 = x.2 → y.1 ≤ x.1

namespace IsLastGreatest

variable {values seen : List (Nat × Int)} {best next x : Nat × Int}

theorem single (x : Nat × Int) : IsLastGreatest [x] x := by
  constructor <;> simp

/-- A value of a later index takes the place of the best one seen unless it is smaller. -/
theorem step (held : IsLastGreatest seen best) (later : ∀ y ∈ seen, y.1 < next.1)
    (picked : lastGreatest (some best) next = some x) : IsLastGreatest (seen ++ [next]) x := by
  unfold lastGreatest at picked
  dsimp only at picked
  split at picked
  · rename_i above
    obtain rfl := Option.some.inj picked
    constructor
    · simp
    · rw [List.forall_mem_append, List.forall_mem_singleton]
      exact ⟨fun y member => (held.greatest y member).trans above, le_rfl⟩
    · rw [List.forall_mem_append, List.forall_mem_singleton]
      exact ⟨fun y member _ => (later y member).le, fun _ => le_rfl⟩
  · rename_i below
    obtain rfl := Option.some.inj picked
    constructor
    · exact List.mem_append_left _ held.member
    · rw [List.forall_mem_append, List.forall_mem_singleton]
      exact ⟨held.greatest, (not_le.mp below).le⟩
    · rw [List.forall_mem_append, List.forall_mem_singleton]
      exact ⟨held.last, fun same => absurd same.ge below⟩

/-- Over values of ascending index, the run ends with the last of the greatest. -/
theorem of_foldl (ascending : values.Pairwise fun x y => x.1 < y.1)
    (picked : values.foldl lastGreatest none = some x) : IsLastGreatest values x := by
  induction values using List.reverseRecOn generalizing x with
  | nil => contradiction
  | append_singleton seen next ih =>
    obtain ⟨earlier, _, later⟩ := List.pairwise_append.mp ascending
    rw [List.foldl_append] at picked
    cases best : seen.foldl lastGreatest none with
    | none =>
      have first : seen = [] := by
        by_contra nonempty
        exact foldl_lastGreatest_ne_none nonempty best
      rw [best] at picked
      obtain rfl := Option.some.inj picked
      rw [first]
      exact single next
    | some b =>
      rw [best] at picked
      exact (ih earlier best).step (fun y member => later y member next List.mem_cons_self) picked

end IsLastGreatest

theorem Position.restingValue_eq_ok {p : Position} {mark r : Int} : p.restingValue mark = .ok r ↔
    Width.i128.Holds (max p.bids p.asks * Fixed.scale) ∧ Width.i128.Holds r ∧
      r = max p.bids p.asks * mark := by
  unfold restingValue
  rw [bind_eq_ok]
  constructor
  · rintro ⟨units, lifted, product⟩
    obtain ⟨held, rfl⟩ := Fixed.ofInt_eq_ok.mp lifted
    exact ⟨held, (Fixed.mul_eq_ok.mp product).1, Fixed.mul_lifted lifted product⟩
  · rintro ⟨held, result, rfl⟩
    refine ⟨_, Fixed.ofInt_eq_ok.mpr ⟨held, rfl⟩, Width.check_eq_ok.mpr ⟨result, ?_⟩⟩
    rw [mul_right_comm, Int.mul_ediv_cancel _ Fixed.scale_pos.ne']

namespace Snapshot

variable {s : Snapshot} {r : Option Nat}

/-- All that the ranking of a position needs is there, and in range. -/
structure Ranked (s : Snapshot) (x : Nat × Position) : Prop where
  found : s.marketAt x.1 = .ok (Exact.market s x.1)
  lifted : Width.i128.Holds (max x.2.bids x.2.asks * Fixed.scale)
  valued : Width.i128.Holds (Exact.resting s x)

/-- The values that are ranked. -/
def restingValues (s : Snapshot) : List (Nat × Int) :=
  s.positions.map fun x => (x.1, Exact.resting s x)

theorem ranked_eq_ok {x : Nat × Position} {y : Nat × Int} :
    (do
      let m ← s.marketAt x.1
      let value ← x.2.restingValue m.mark
      pure (x.1, value)) = Except.ok y ↔ s.Ranked x ∧ y = (x.1, Exact.resting s x) := by
  simp only [bind_eq_ok, Position.restingValue_eq_ok]
  constructor
  · rintro ⟨m, found, value, ⟨lifted, valued, rfl⟩, made⟩
    cases made
    obtain rfl := marketAt_exact found
    exact ⟨⟨found, lifted, valued⟩, rfl⟩
  · rintro ⟨⟨found, lifted, valued⟩, rfl⟩
    exact ⟨_, found, _, ⟨lifted, valued, rfl⟩, rfl⟩

theorem restingValues_ascending (s : Snapshot) :
    s.restingValues.Pairwise fun x y => x.1 < y.1 :=
  List.pairwise_map.mpr s.positions_ascending

/-- The ranking is the run through the values of the active positions. -/
theorem largestOrder_eq_ok : s.largestOrder = .ok r ↔ (∀ x ∈ s.positions, s.Ranked x) ∧
    ∃ best, s.restingValues.foldl lastGreatest none = some best ∧
      r = if best.2 = 0 then none else some best.1 := by
  unfold largestOrder
  rw [bind_eq_ok]
  constructor
  · rintro ⟨values, valued, picked⟩
    obtain ⟨ranked, rfl⟩ := (mapM_eq_ok_of_step fun _ _ => ranked_eq_ok).mp valued
    refine ⟨ranked, ?_⟩
    split at picked
    · exact absurd picked (fail_ne_ok _ _)
    · rename_i index value best
      exact ⟨(index, value), best, (Except.ok.inj picked).symm⟩
  · rintro ⟨ranked, ⟨index, value⟩, best, rfl⟩
    refine ⟨s.restingValues, (mapM_eq_ok_of_step fun _ _ => ranked_eq_ok).mpr ⟨ranked, rfl⟩, ?_⟩
    rw [best]
    rfl

theorem mem_restingValues {y : Nat × Int} : y ∈ s.restingValues ↔
    ∃ p, (y.1, p) ∈ s.positions ∧ y.2 = Exact.resting s (y.1, p) := by
  unfold restingValues
  rw [List.mem_map]
  constructor
  · rintro ⟨⟨i, p⟩, member, rfl⟩
    exact ⟨p, member, rfl⟩
  · rintro ⟨p, member, value⟩
    exact ⟨(y.1, p), member, Prod.ext rfl value.symm⟩

/-- No active slot holds a position exactly if the ranking finds none. -/
theorem largestOrder_noPositions_iff :
    s.largestOrder = .error (.margin .noPositions) ↔ s.positions = [] := by
  constructor
  · intro failed
    by_contra occupied
    cases (largestOrder_ends occupied).fault failed with
    | arithmetic fault => nomatch fault
  · intro vacant
    unfold largestOrder
    rw [vacant]
    rfl

theorem largestOrder_returns_iff : (∃ r, s.largestOrder = .ok r) ↔
    s.positions ≠ [] ∧ ∀ x ∈ s.positions, s.Ranked x := by
  simp only [largestOrder_eq_ok]
  constructor
  · rintro ⟨_, ranked, best, picked, _⟩
    refine ⟨?_, ranked⟩
    rintro vacant
    rw [restingValues, vacant] at picked
    contradiction
  · rintro ⟨occupied, ranked⟩
    have values : s.restingValues ≠ [] := by simpa [restingValues] using occupied
    obtain ⟨best, picked⟩ := Option.ne_none_iff_exists'.mp (foldl_lastGreatest_ne_none values)
    exact ⟨_, ranked, best, picked, rfl⟩

theorem hasOrders_of_largestOrder (done : s.largestOrder = .ok r) :
    s.hasOrders = .ok r.isSome := by
  unfold hasOrders
  rw [done]
  rfl

section Ranking

variable {best : Nat × Int}

theorem isGreatest_value (held : IsLastGreatest s.restingValues best) :
    IsGreatest {value | ∃ x ∈ s.positions, Exact.resting s x = value} best.2 := by
  constructor
  · obtain ⟨p, member, value⟩ := mem_restingValues.mp held.member
    exact ⟨_, member, value.symm⟩
  · rintro _ ⟨x, member, rfl⟩
    exact held.greatest _ (List.mem_map_of_mem member)

theorem isGreatest_index (held : IsLastGreatest s.restingValues best) :
    IsGreatest {i | ∃ p, (i, p) ∈ s.positions ∧ Exact.resting s (i, p) = best.2} best.1 := by
  constructor
  · obtain ⟨p, member, value⟩ := mem_restingValues.mp held.member
    exact ⟨p, member, value.symm⟩
  · rintro i ⟨p, member, value⟩
    exact held.last _ (List.mem_map_of_mem member) value

end Ranking

/-- The ranking finds no position exactly if no active slot holds one, and it returns if all that the
positions need is there and in range. Then it gives the last market of the greatest value, or none if
that value is zero. -/
theorem largestOrder_isGreatest (s : Snapshot) :
    (s.largestOrder = .error (.margin .noPositions) ↔
      ∀ (i : Nat) (p : Position), i < s.marketCount → s.account.positions[i]? ≠ some (some p)) ∧
    ((∃ r, s.largestOrder = .ok r) ↔ s.positions ≠ [] ∧ ∀ x ∈ s.positions, s.Ranked x) ∧
    ∀ r, s.largestOrder = .ok r →
      ∃ greatest, IsGreatest {value | ∃ x ∈ s.positions, Exact.resting s x = value} greatest ∧
        (r = none ↔ greatest = 0) ∧
        (∀ i, r = some i ↔ greatest ≠ 0 ∧
          IsGreatest {i | ∃ p, (i, p) ∈ s.positions ∧ Exact.resting s (i, p) = greatest} i) ∧
        s.hasOrders = .ok (decide (greatest ≠ 0)) := by
  refine ⟨?_, largestOrder_returns_iff, fun r done => ?_⟩
  · rw [largestOrder_noPositions_iff, List.eq_nil_iff_forall_not_mem]
    constructor
    · intro vacant i p active held
      exact vacant (i, p) (mem_positions.mpr ⟨active, held⟩)
    · rintro vacant ⟨i, p⟩ member
      obtain ⟨active, held⟩ := mem_positions.mp member
      exact vacant i p active held
  · obtain ⟨_, best, picked, result⟩ := largestOrder_eq_ok.mp done
    have held := IsLastGreatest.of_foldl (restingValues_ascending s) picked
    have orders := hasOrders_of_largestOrder done
    refine ⟨best.2, isGreatest_value held, ?_⟩
    by_cases zero : best.2 = 0
    · rw [if_pos zero] at result
      subst result
      refine ⟨by simp [zero], fun i => by simp [zero], ?_⟩
      simpa [zero] using orders
    · rw [if_neg zero] at result
      subst result
      refine ⟨by simp [zero], fun i => ?_, by simpa [zero] using orders⟩
      rw [Option.some.injEq]
      constructor
      · rintro rfl
        exact ⟨zero, isGreatest_index held⟩
      · rintro ⟨_, greatest⟩
        exact (isGreatest_index held).unique greatest

/-- Two markets share the greatest value, with an empty slot between them and a smaller value behind. -/
def contested : Snapshot where
  account := {
    positions := [
      some { key := 1 :: List.replicate 31 0, bids := 6, asks := 2 },
      none,
      some { key := 2 :: List.replicate 31 0, asks := 10 },
      some { key := 3 :: List.replicate 31 0, size := 9, bids := 2 }] }
  markets := [some ⟨"A", 1, 101⟩, none, some ⟨"B", 0, 60⟩, some ⟨"C", 2, 15⟩]
  marks := [5, 0, 3, 7]
  fundings := [0, 0, 0, 0]
  marketCount := 4

theorem largestOrder_isGreatest_contested : contested.largestOrder = .ok (some 2) ∧
    IsGreatest {value | ∃ x ∈ contested.positions, Exact.resting contested x = value} 30 ∧
    IsGreatest {i | ∃ p, (i, p) ∈ contested.positions ∧ Exact.resting contested (i, p) = 30} 2 ∧
    contested.hasOrders = .ok true := by
  have done : contested.largestOrder = .ok (some 2) := by cbv
  obtain ⟨greatest, value, _, index, orders⟩ := (largestOrder_isGreatest contested).2.2 _ done
  obtain ⟨nonzero, last⟩ := (index 2).mp rfl
  have thirty : greatest = 30 := by
    obtain ⟨p, member, rfl⟩ := last.1
    have held := (mem_positions.mp member).2
    obtain rfl := Option.some.inj (Option.some.inj held)
    decide
  subst thirty
  exact ⟨done, value, last, orders⟩

end Snapshot
end Solvency
