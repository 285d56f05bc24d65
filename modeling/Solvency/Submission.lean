import Solvency.Settings.Basic
import Solvency.Log

/-! Submission with retries. Every attempt builds a request of its own and sends it; the first answer
ends the submission, and so does a fatal outcome, which is not tried again. -/
namespace Solvency

/-- What comes of building and sending one request. -/
inductive Attempt (α : Type) where
  | answer (a : α)
  | failure (text : Text)
  | fatal (text : Text)

/-- How a submission ends. -/
inductive Ending (α : Type) where
  | answer (a : α)
  | fatal (text : Text)
  | fault (f : Fault)

structure Submission (α : Type) where
  ending : Ending α
  built : Nat
  log : List LogLine

namespace Submission

variable {α : Type}

def attemptLog (number : Nat) (limit : Int) (text : Text) : LogLine :=
  ⟨.debug, Text.ofString s!"send attempt {number}/{limit} failed: " ++ text⟩

/-- All attempts have failed, the last one with `last`. -/
def exhausted (limit : Int) (built : Nat) (last : Text) : Submission α where
  ending := .fault (.margin (.timeout limit last))
  built := built
  log := [⟨.error,
    Text.ofString s!"failed to send request after {limit} attempts: " ++ last⟩]

/-- Goes on with `remaining` attempts after `built` of them, the last of which failed with `last`. -/
def attempts (limit : Int) (outcome : Nat → Attempt α) (built : Nat) (last : Text) :
    Nat → Submission α
  | 0 => exhausted limit built last
  | remaining + 1 =>
    match outcome built with
    | .answer a => ⟨.answer a, built + 1, []⟩
    | .fatal text => ⟨.fatal text, built + 1, []⟩
    | .failure text =>
      let rest := attempts limit outcome (built + 1) text remaining
      { rest with log := attemptLog (built + 1) limit text :: rest.log }

/-- Submits with at most `limit` attempts, of which `outcome` tells what comes, by number from
zero. -/
def run (limit : Int) (outcome : Nat → Attempt α) : Submission α :=
  if limit < 1 then
    ⟨.fault (if Writable limit then .attempts limit else .digitLimit), 0, []⟩
  else attempts limit outcome 0 [] limit.toNat

end Submission

def Settings.submit {α : Type} (c : Settings) (outcome : Nat → Attempt α) : Submission α :=
  Submission.run c.retries outcome

end Solvency
