import Solvency.Fault

/-! Success of computations that may fail. One that succeeds tells how each of its steps went, and a
fold that succeeds is the plain fold of what its steps compute. Two computations that go together
step by step end together. -/
namespace Solvency

variable {ε α β : Type}

@[simp] theorem ok_bind (a : α) (f : α → Except ε β) : Except.ok a >>= f = f a := rfl

theorem bind_eq_ok {x : Except ε α} {f : α → Except ε β} {b : β} :
    x >>= f = .ok b ↔ ∃ a, x = .ok a ∧ f a = .ok b := by
  cases x <;> simp [bind, Except.bind]

theorem seq_eq_ok {x : Except ε Unit} {f : Unit → Except ε β} {b : β} :
    x >>= f = .ok b ↔ x = .ok () ∧ f () = .ok b :=
  bind_eq_ok.trans ⟨fun ⟨_, first, rest⟩ => ⟨first, rest⟩, fun ⟨first, rest⟩ => ⟨(), first, rest⟩⟩

theorem map_eq_ok {x : Except ε α} {f : α → β} {b : β} :
    f <$> x = .ok b ↔ ∃ a, x = .ok a ∧ f a = b := by
  cases x <;> simp [Functor.map, Except.map]

theorem toOption_eq_some {x : Except ε α} {a : α} : x.toOption = some a ↔ x = .ok a := by
  cases x <;> simp [Except.toOption]

@[simp] theorem fail_ne_ok (f : Fault) (a : α) : fail f ≠ .ok a := by simp [fail]

/-- The steps of a fold may be replaced by what they compute where they succeed. -/
theorem foldlM_eq_ok {f : β → α → Except ε β} (g : β → α → β) {xs : List α} {b r : β}
    (step : ∀ b b', ∀ a ∈ xs, f b a = .ok b' → b' = g b a)
    (done : xs.foldlM f b = .ok r) : r = xs.foldl g b := by
  induction xs generalizing b with
  | nil => cases done; rfl
  | cons a rest ih =>
    rw [List.foldlM_cons] at done
    obtain ⟨b', first, done⟩ := bind_eq_ok.mp done
    have rest_step : ∀ b b', ∀ a ∈ rest, f b a = .ok b' → b' = g b a :=
      fun b b' a member => step b b' a (List.mem_cons_of_mem _ member)
    rw [List.foldl_cons, ← step b b' a List.mem_cons_self first]
    exact ih rest_step done

/-- What a successful step shows of its item holds of every item of a fold. -/
theorem forall_of_foldlM {f : β → α → Except ε β} {P : α → Prop} {xs : List α} {b r : β}
    (step : ∀ b b', ∀ a ∈ xs, f b a = .ok b' → P a) (done : xs.foldlM f b = .ok r) :
    ∀ a ∈ xs, P a := by
  induction xs generalizing b with
  | nil => simp
  | cons a rest ih =>
    rw [List.foldlM_cons] at done
    obtain ⟨b', first, done⟩ := bind_eq_ok.mp done
    have rest_step : ∀ b b', ∀ a ∈ rest, f b a = .ok b' → P a :=
      fun b b' a member => step b b' a (List.mem_cons_of_mem _ member)
    exact List.forall_mem_cons.mpr ⟨step b b' a List.mem_cons_self first, ih rest_step done⟩

section Congruence

/-- What follows a step matters only for the result that the step gives. -/
theorem bind_congr_of_ok {x : Except ε α} {f g : α → Except ε β}
    (same : ∀ a, x = .ok a → f a = g a) : x >>= f = x >>= g := by
  cases x with
  | ok a => exact same a rfl
  | error _ => rfl

theorem mapM_congr_of_mem {f g : α → Except ε β} {xs : List α} (same : ∀ x ∈ xs, f x = g x) :
    xs.mapM f = xs.mapM g := by
  induction xs with
  | nil => rfl
  | cons x rest ih =>
    obtain ⟨first, others⟩ := List.forall_mem_cons.mp same
    rw [List.mapM_cons, List.mapM_cons, first, ih others]

theorem foldlM_congr_of_mem {f g : β → α → Except ε β} {xs : List α} {b : β}
    (same : ∀ x ∈ xs, ∀ b, f b x = g b x) : xs.foldlM f b = xs.foldlM g b := by
  induction xs generalizing b with
  | nil => rfl
  | cons x rest ih =>
    obtain ⟨first, others⟩ := List.forall_mem_cons.mp same
    rw [List.foldlM_cons, List.foldlM_cons, first b]
    exact bind_congr_of_ok fun _ _ => ih others

/-- A fold whose states are seen through a map ends as the other one, in a fault or in a result. -/
theorem foldlM_seen {γ : Type} {f : β → α → Except ε β} {f' : γ → α → Except ε γ} (g : β → γ)
    (step : ∀ b a, f' (g b) a = g <$> f b a) (xs : List α) (b : β) :
    xs.foldlM f' (g b) = g <$> xs.foldlM f b := by
  induction xs generalizing b with
  | nil => rfl
  | cons a rest ih =>
    rw [List.foldlM_cons, List.foldlM_cons, step, map_bind, bind_map_left]
    exact bind_congr_of_ok fun b' _ => ih b'

end Congruence

end Solvency
