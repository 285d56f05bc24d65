import Solvency.Submission

/-! The course of a submission. Its attempts fail one after the other until one of them ends it or
none is left: what the failures before that say, and how many there are, fixes what is built, logged
and returned. -/
namespace Solvency

/-- How an attempt ends the submission; a failure does not. -/
def Attempt.ending? {α : Type} : Attempt α → Option (Ending α)
  | .answer a => some (.answer a)
  | .failure _ => none
  | .fatal text => some (.fatal text)

namespace Submission

variable {α : Type} {limit : Int} {outcome : Nat → Attempt α}

/-- The attempts after the first `built` ones fail with `texts`, in this order. -/
def FailsFrom (outcome : Nat → Attempt α) (built : Nat) (texts : List Text) : Prop :=
  ∀ i (inside : i < texts.length), outcome (built + i) = .failure texts[i]

/-- One line for each failure, the first of which is that of attempt `number`. -/
def failureLog (limit : Int) (number : Nat) (texts : List Text) : List LogLine :=
  (texts.zipIdx number).map fun (text, i) => attemptLog i limit text

@[simp] theorem failsFrom_nil (outcome : Nat → Attempt α) (built : Nat) :
    FailsFrom outcome built [] := fun _ inside => absurd inside (Nat.not_lt_zero _)

theorem failsFrom_cons {built : Nat} {text : Text} {texts : List Text} :
    FailsFrom outcome built (text :: texts) ↔
      outcome built = .failure text ∧ FailsFrom outcome (built + 1) texts := by
  constructor
  · intro fails
    refine ⟨fails 0 (by simp), fun i inside => ?_⟩
    have next := fails (i + 1) (by simpa using inside)
    rwa [← Nat.add_assoc, Nat.add_right_comm, List.getElem_cons_succ] at next
  · rintro ⟨first, rest⟩ (_ | i) inside
    · exact first
    · rw [← Nat.add_assoc, Nat.add_right_comm, List.getElem_cons_succ]
      exact rest i (by simpa using inside)

section Step

variable {built remaining : Nat} {last : Text}

theorem attempts_of_ending {ending : Ending α} (ends : (outcome built).ending? = some ending) :
    attempts limit outcome built last (remaining + 1) = ⟨ending, built + 1, []⟩ := by
  unfold attempts
  cases result : outcome built with
  | answer a => cases result ▸ ends; rfl
  | failure text => cases result ▸ ends
  | fatal text => cases result ▸ ends; rfl

theorem attempts_of_failure {text : Text} (fails : outcome built = .failure text) :
    attempts limit outcome built last (remaining + 1) =
      { attempts limit outcome (built + 1) text remaining with
        log := attemptLog (built + 1) limit text ::
          (attempts limit outcome (built + 1) text remaining).log } := by
  rw [attempts, fails]

/-- Failures use up attempts and leave their lines; the last of them is what the rest starts
from. -/
theorem attempts_of_failsFrom {texts : List Text} (fails : FailsFrom outcome built texts) :
    attempts limit outcome built last (texts.length + remaining) =
      { attempts limit outcome (built + texts.length) (texts.getLastD last) remaining with
        log := failureLog limit (built + 1) texts ++
          (attempts limit outcome (built + texts.length) (texts.getLastD last) remaining).log } := by
  -- Every failure moves both where the rest starts and what failed last.
  induction texts generalizing built last with
  | nil => simp [failureLog]
  | cons text texts ih =>
    obtain ⟨first, rest⟩ := failsFrom_cons.mp fails
    have count : (text :: texts).length + remaining = texts.length + remaining + 1 := by
      rw [List.length_cons, Nat.add_right_comm]
    have reached : built + 1 + texts.length = built + (text :: texts).length := by
      rw [List.length_cons, Nat.add_assoc, Nat.add_comm 1]
    rw [count, attempts_of_failure first, ih rest, reached, List.getLastD_cons]
    rfl

end Step

/-- The first failures go as far as the limit or to an attempt that ends the submission. -/
theorem exists_failsFrom (outcome : Nat → Attempt α) (built n : Nat) :
    ∃ texts, FailsFrom outcome built texts ∧
      (texts.length = n ∨
        texts.length < n ∧ ∃ ending, (outcome (built + texts.length)).ending? = some ending) := by
  induction n generalizing built with
  | zero => exact ⟨[], failsFrom_nil outcome built, .inl rfl⟩
  | succ n ih =>
    cases result : (outcome built).ending? with
    | some ending =>
      exact ⟨[], failsFrom_nil outcome built, .inr ⟨Nat.succ_pos n, ending, result⟩⟩
    | none =>
      obtain ⟨text, fails⟩ : ∃ text, outcome built = .failure text := by
        cases first : outcome built with
        | failure text => exact ⟨text, rfl⟩
        | answer a => rw [first] at result; cases result
        | fatal text => rw [first] at result; cases result
      obtain ⟨texts, rest, goes⟩ := ih (built + 1)
      refine ⟨text :: texts, failsFrom_cons.mpr ⟨fails, rest⟩, ?_⟩
      rw [List.length_cons, ← Nat.add_assoc, Nat.add_right_comm]
      exact goes.imp (congrArg Nat.succ) fun ⟨fewer, ends⟩ => ⟨Nat.succ_lt_succ fewer, ends⟩

end Submission
end Solvency
