import Solvency.Fault
import Solvency.Snapshot.Basic

/-! The settings of the assessment, and the ranges they have to lie in. -/
namespace Solvency

/-- The requirements on an account, how often a request is sent, what is added to a seizure for
execution, in permille, and whether snapshots are validated first. -/
structure Settings where
  requirements : Requirements := {}
  retries : Int := 5
  fudge : Option Int := none
  validates : Bool := true
  deriving DecidableEq, Repr

def greatestRequirement : Int := 10000000

def greatestRetries : Int := 100

def greatestFudge : Int := 10000

namespace Settings

def RequirementsFit (c : Settings) : Prop :=
  0 < c.requirements.maintenance ∧ c.requirements.maintenance ≤ c.requirements.initial ∧
    c.requirements.initial ≤ greatestRequirement

def RetriesFit (c : Settings) : Prop := 1 ≤ c.retries ∧ c.retries ≤ greatestRetries

def FudgeFits (c : Settings) : Prop := ∀ f ∈ c.fudge, 0 < f ∧ f ≤ greatestFudge

instance (c : Settings) : Decidable c.RequirementsFit := inferInstanceAs (Decidable (_ ∧ _))
instance (c : Settings) : Decidable c.RetriesFit := inferInstanceAs (Decidable (_ ∧ _))

instance (c : Settings) : Decidable c.FudgeFits := by
  unfold FudgeFits
  cases c.fudge with
  | none => exact .isTrue (by simp)
  | some f => exact decidable_of_iff (0 < f ∧ f ≤ greatestFudge) (by simp)

/-- All settings lie in their ranges. -/
def Valid (c : Settings) : Prop := c.RequirementsFit ∧ c.RetriesFit ∧ c.FudgeFits

/-- Lets the settings pass exactly if they are valid. -/
def checked (c : Settings) : Except Fault Settings :=
  if ¬ c.RequirementsFit then
    fail (.margin (.config (.requirements c.requirements.maintenance c.requirements.initial)))
  else if ¬ c.RetriesFit then fail (.margin (.config (.retries c.retries)))
  else if ¬ c.FudgeFits then fail (.margin (.config (.fudge (c.fudge.getD 0))))
  else .ok c

theorem checked_eq_ok {c c' : Settings} : c.checked = .ok c' ↔ c.Valid ∧ c = c' := by
  unfold checked Valid
  split
  · simp_all [fail]
  · split
    · simp_all [fail]
    · split <;> simp_all [fail]

end Settings
end Solvency
