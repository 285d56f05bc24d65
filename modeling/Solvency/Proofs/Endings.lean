import Solvency.Proofs.Success

/-! How computations end. The property of a result and that of a fault are followed together: a step
may rely on what the steps before it gave, and every fault of a run is the fault of one step. -/
namespace Solvency

variable {ε α β : Type}

/-- Gives a result with one property or a fault with another. -/
def Ends (P : Fault → Prop) (Q : α → Prop) : Except Fault α → Prop
  | .ok a => Q a
  | .error f => P f

namespace Ends

variable {P P' : Fault → Prop} {Q : α → Prop} {R : β → Prop} {x : Except Fault α}

theorem result {a : α} (ends : Ends P Q x) (done : x = .ok a) : Q a := by
  subst done
  exact ends

theorem fault {f : Fault} (ends : Ends P Q x) (failed : x = .error f) : P f := by
  subst failed
  exact ends

theorem imp {Q' : α → Prop} (ends : Ends P Q x) (faults : ∀ f, P f → P' f)
    (results : ∀ a, Q a → Q' a) : Ends P' Q' x := by
  cases x with
  | ok a => exact results a ends
  | error f => exact faults f ends

theorem faults (ends : Ends P Q x) (imp : ∀ f, P f → P' f) : Ends P' Q x :=
  ends.imp imp fun _ => id

theorem results {Q' : α → Prop} (ends : Ends P Q x) (imp : ∀ a, Q a → Q' a) : Ends P Q' x :=
  ends.imp (fun _ => id) imp

/-- A result may be used together with the run that it comes from. -/
theorem run (ends : Ends P Q x) : Ends P (fun a => x = .ok a ∧ Q a) x := by
  cases x with
  | ok a => exact ⟨rfl, ends⟩
  | error f => exact ends

/-- What every result shows and every fault denies decides whether there is a result. -/
theorem returns_iff {C : Prop} (ends : Ends P Q x) (results : ∀ a, Q a → C)
    (faults : ∀ f, P f → ¬ C) : (∃ a, x = .ok a) ↔ C := by
  constructor
  · rintro ⟨a, done⟩
    exact results a (ends.result done)
  · intro holds
    cases ended : x with
    | ok a => exact ⟨a, rfl⟩
    | error f => exact absurd holds (faults f (ends.fault ended))

theorem bind {f : α → Except Fault β} (first : Ends P Q x) (rest : ∀ a, Q a → Ends P R (f a)) :
    Ends P R (x >>= f) := by
  cases x with
  | ok a => exact rest a first
  | error _ => exact first

theorem map {f : α → β} (ends : Ends P Q x) (results : ∀ a, Q a → R (f a)) :
    Ends P R (f <$> x) := by
  cases x with
  | ok a => exact results a ends
  | error _ => exact ends

theorem fail {f : Fault} (fault : P f)
    (unwritable : (¬ ∀ n ∈ f.cited, Writable n) → P .digitLimit) : Ends P Q (fail f) := by
  unfold Solvency.fail
  split
  · exact fault
  · rename_i refused
    exact unwritable (by simpa using refused)

/-- What holds at the start and is kept by every step holds at the end of a fold. -/
theorem foldlM {f : β → α → Except Fault β} {xs : List α} {b : β} (start : R b)
    (step : ∀ b, ∀ a ∈ xs, R b → Ends P R (f b a)) : Ends P R (xs.foldlM f b) := by
  induction xs generalizing b with
  | nil => exact start
  | cons a rest ih =>
    rw [List.foldlM_cons]
    have first : Ends P R (f b a) := step b a List.mem_cons_self start
    refine first.bind fun b' kept => ih kept fun b a member => ?_
    exact step b a (List.mem_cons_of_mem _ member)

/-- A fold may go along with one that succeeds: every step finds the state that the other one has. -/
theorem foldlM_along {γ : Type} {f : β → α → Except Fault β} {f' : γ → α → Except Fault γ}
    {R : β → γ → Prop} {xs : List α} {b r : β} {c : γ} (start : R b c)
    (step : ∀ b b' c, ∀ a ∈ xs, R b c → f b a = .ok b' → Ends P (R b') (f' c a))
    (done : xs.foldlM f b = .ok r) : Ends P (R r) (xs.foldlM f' c) := by
  induction xs generalizing b c with
  | nil =>
    cases done
    exact start
  | cons a rest ih =>
    rw [List.foldlM_cons] at done ⊢
    obtain ⟨b', first, done⟩ := bind_eq_ok.mp done
    refine (step b b' c a List.mem_cons_self start first).bind fun c' kept => ?_
    exact ih kept (fun b b' c a member => step b b' c a (List.mem_cons_of_mem _ member)) done

theorem mapM {f : α → Except Fault β} {xs : List α} (step : ∀ a ∈ xs, Ends P R (f a)) :
    Ends P (fun ys => ys.length = xs.length ∧ ∀ b ∈ ys, R b) (xs.mapM f) := by
  induction xs with
  | nil => exact ⟨rfl, by simp⟩
  | cons a rest ih =>
    rw [List.mapM_cons]
    refine (step a List.mem_cons_self).bind fun b property => ?_
    refine (ih fun a member => step a (List.mem_cons_of_mem _ member)).bind fun bs properties => ?_
    exact ⟨congrArg (· + 1) properties.1, List.forall_mem_cons.mpr ⟨property, properties.2⟩⟩

end Ends

theorem bind_eq_error {x : Except ε α} {f : α → Except ε β} {e : ε} :
    x >>= f = .error e ↔ x = .error e ∨ ∃ a, x = .ok a ∧ f a = .error e := by
  cases x <;> simp [Bind.bind, Except.bind]

/-- A fold fails with the fault of the first step that does, after steps that all succeed. -/
theorem foldlM_eq_error {f : β → α → Except ε β} {xs : List α} {b : β} {e : ε} :
    xs.foldlM f b = .error e ↔ ∃ before a after b', xs = before ++ a :: after ∧
      before.foldlM f b = .ok b' ∧ f b' a = .error e := by
  constructor
  · intro failed
    induction xs generalizing b with
    | nil => cases failed
    | cons x rest ih =>
      rw [List.foldlM_cons] at failed
      rcases bind_eq_error.mp failed with first | ⟨b', first, later⟩
      · exact ⟨[], x, rest, b, rfl, rfl, first⟩
      · obtain ⟨before, a, after, b'', rfl, passed, last⟩ := ih later
        refine ⟨x :: before, a, after, b'', rfl, ?_, last⟩
        rw [List.foldlM_cons, bind_eq_ok]
        exact ⟨b', first, passed⟩
  · rintro ⟨before, a, after, b', rfl, passed, last⟩
    rw [List.foldlM_append, bind_eq_error]
    refine .inr ⟨b', passed, ?_⟩
    rw [List.foldlM_cons, bind_eq_error]
    exact .inl last

/-- A traversal succeeds exactly if each of its items does. -/
theorem mapM_eq_ok {f : α → Except ε β} {xs : List α} {ys : List β} :
    xs.mapM f = .ok ys ↔ xs.map f = ys.map .ok := by
  induction xs generalizing ys with
  | nil => cases ys <;> simp [pure, Except.pure]
  | cons x rest ih =>
    simp only [List.mapM_cons, bind_eq_ok, ih, pure, Except.pure, Except.ok.injEq]
    cases ys with
    | nil => simp
    | cons y ys => simp [eq_comm]

theorem mapM_returns_iff {f : α → Except ε β} {xs : List α} :
    (∃ ys, xs.mapM f = .ok ys) ↔ ∀ x ∈ xs, ∃ y, f x = .ok y := by
  induction xs with
  | nil => exact ⟨fun _ => by simp, fun _ => ⟨[], rfl⟩⟩
  | cons x rest ih =>
    rw [List.forall_mem_cons, ← ih]
    simp only [List.mapM_cons, bind_eq_ok]
    constructor
    · rintro ⟨_, y, first, ys, others, _⟩
      exact ⟨⟨y, first⟩, ys, others⟩
    · rintro ⟨⟨y, first⟩, ys, others⟩
      exact ⟨y :: ys, y, first, ys, others, rfl⟩

/-- A traversal whose steps succeed under a condition, with a result that is known, succeeds if all of
its items meet the condition, with the results that are known. -/
theorem mapM_eq_ok_of_step {f : α → Except ε β} {P : α → Prop} {g : α → β} {xs : List α} {ys : List β}
    (step : ∀ x y, f x = .ok y ↔ P x ∧ y = g x) :
    xs.mapM f = .ok ys ↔ (∀ x ∈ xs, P x) ∧ ys = xs.map g := by
  induction xs generalizing ys with
  | nil => simp [pure, Except.pure, eq_comm]
  | cons x rest ih =>
    rw [List.mapM_cons, List.forall_mem_cons, List.map_cons, bind_eq_ok]
    constructor
    · rintro ⟨y, first, done⟩
      obtain ⟨zs, others, made⟩ := bind_eq_ok.mp done
      obtain ⟨held, rfl⟩ := (step x y).mp first
      obtain ⟨all, rfl⟩ := ih.mp others
      exact ⟨⟨held, all⟩, (Except.ok.inj made).symm⟩
    · rintro ⟨⟨held, all⟩, rfl⟩
      exact ⟨g x, (step x _).mpr ⟨held, rfl⟩, bind_eq_ok.mpr ⟨_, ih.mpr ⟨all, rfl⟩, rfl⟩⟩

/-- Each result of a traversal comes from an item. -/
theorem exists_of_mem_mapM {f : α → Except ε β} {xs : List α} {ys : List β} {y : β}
    (done : xs.mapM f = .ok ys) (member : y ∈ ys) : ∃ x ∈ xs, f x = .ok y := by
  have listed : .ok y ∈ ys.map (Except.ok : β → Except ε β) := List.mem_map_of_mem member
  rw [← mapM_eq_ok.mp done] at listed
  exact List.mem_map.mp listed

/-- Each item of a traversal has a result. -/
theorem exists_mem_of_mapM {f : α → Except ε β} {xs : List α} {ys : List β} {x : α}
    (done : xs.mapM f = .ok ys) (member : x ∈ xs) : ∃ y ∈ ys, f x = .ok y := by
  have listed : f x ∈ xs.map f := List.mem_map_of_mem member
  rw [mapM_eq_ok.mp done] at listed
  obtain ⟨y, result, made⟩ := List.mem_map.mp listed
  exact ⟨y, result, made.symm⟩

/-- What each step shows of its result holds of all results. -/
theorem forall_of_mapM {f : α → Except ε β} {P : β → Prop} {xs : List α} {ys : List β}
    (step : ∀ x ∈ xs, ∀ y, f x = .ok y → P y) (done : xs.mapM f = .ok ys) : ∀ y ∈ ys, P y := by
  intro y member
  obtain ⟨x, origin, made⟩ := exists_of_mem_mapM done member
  exact step x origin y made

theorem eq_of_mapM {f : α → Except ε β} {xs xs' : List α} {ys : List β}
    (inj : ∀ a a' b, f a = .ok b → f a' = .ok b → a = a') (done : xs.mapM f = .ok ys)
    (done' : xs'.mapM f = .ok ys) : xs = xs' := by
  rw [mapM_eq_ok] at done done'
  induction ys generalizing xs xs' with
  | nil => rw [List.map_eq_nil_iff.mp done, List.map_eq_nil_iff.mp done']
  | cons y ys ih =>
    obtain ⟨x, rest, rfl, first, others⟩ := List.map_eq_cons_iff.mp done
    obtain ⟨x', rest', rfl, first', others'⟩ := List.map_eq_cons_iff.mp done'
    rw [inj x x' y first first', ih others others']

/-- A computation returns if its first step does, and the others do whatever that gives. -/
theorem bind_returns_iff {x : Except ε α} {f : α → Except ε β} {P : Prop}
    (rest : ∀ a, (∃ b, f a = .ok b) ↔ P) : (∃ b, x >>= f = .ok b) ↔ (∃ a, x = .ok a) ∧ P := by
  cases x with
  | ok a => simp [rest]
  | error _ => exact ⟨fun ⟨_, done⟩ => (nomatch done), fun ⟨⟨_, done⟩, _⟩ => (nomatch done)⟩

theorem bind_pure_returns_iff {x : Except ε α} {g : α → β} :
    (∃ b, (x >>= fun a => pure (g a)) = .ok b) ↔ ∃ a, x = .ok a :=
  (bind_returns_iff fun a => iff_of_true ⟨g a, rfl⟩ trivial).trans (and_iff_left trivial)

/-- What is kept of the results may be told from the items. -/
theorem filterMap_of_mapM {γ : Type} {f : α → Except ε β} {kept : β → Option γ}
    {told : α → Option γ} {xs : List α} {ys : List β}
    (agree : ∀ a b, f a = .ok b → kept b = told a) (done : xs.mapM f = .ok ys) :
    ys.filterMap kept = xs.filterMap told := by
  induction xs generalizing ys with
  | nil =>
    cases done
    rfl
  | cons x rest ih =>
    rw [List.mapM_cons] at done
    obtain ⟨y, first, done⟩ := bind_eq_ok.mp done
    obtain ⟨zs, others, made⟩ := bind_eq_ok.mp done
    cases made
    rw [List.filterMap_cons, List.filterMap_cons, agree x y first, ih others]

theorem map_of_mapM {γ : Type} {f : α → Except ε β} {kept : β → γ} {told : α → γ} {xs : List α}
    {ys : List β} (agree : ∀ a b, f a = .ok b → kept b = told a) (done : xs.mapM f = .ok ys) :
    ys.map kept = xs.map told := by
  simpa only [List.filterMap_eq_map'] using
    filterMap_of_mapM (fun a b step => congrArg some (agree a b step)) done

end Solvency
