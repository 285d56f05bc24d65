import Solvency.Proofs.IntegerText
import Solvency.Proofs.Overflow
import Solvency.Settings.Environment

/-! Settings overlaid with the environment. Each integer setting follows its own variable, but for a
fudge that is set in vain over none. Every overlaid setting lies in its range; only the relation
between the two requirements can keep the settings from being valid. -/
namespace Solvency

namespace Environment

/-- The variable is set to a text that spells the integer. -/
def Spells (env : Environment) (name : String) (n : Int) : Prop :=
  ∃ t, env name = some t ∧ t.Spells n

/-- The variable is set, and not to a blank, but it spells no integer. -/
def InVain (env : Environment) (name : String) : Prop :=
  (∃ t, env name = some t ∧ t.isBlank = false) ∧ ∀ n, ¬ env.Spells name n

/-- The environment with a single variable. -/
def single (name : String) (t : Text) : Environment := fun other =>
  if other = name then some t else none

variable {env env' : Environment} {name : String} {n own lo hi : Int}

theorem given?_eq_some_iff {t : Text} :
    env.given? name = some t ↔ env name = some t ∧ t.isBlank = false := by
  simp [given?, Option.filter_eq_some_iff]

theorem given?_of_spells (spelled : env.Spells name n) :
    ∃ t, env.given? name = some t ∧ t.trim.integer? = some n := by
  obtain ⟨t, set, spelled⟩ := spelled
  have solid : t.isBlank = false :=
    Bool.eq_false_iff.mpr fun blank => Text.not_spells_of_isBlank blank spelled
  exact ⟨t, given?_eq_some_iff.mpr ⟨set, solid⟩, Text.spells_iff.mp spelled⟩

theorem isSome_given?_iff :
    (env.given? name).isSome ↔ env.InVain name ∨ ∃ n, env.Spells name n := by
  constructor
  · intro given
    obtain ⟨t, given⟩ := Option.isSome_iff_exists.mp given
    by_cases spelled : ∃ n, env.Spells name n
    · exact .inr spelled
    · exact .inl ⟨⟨t, given?_eq_some_iff.mp given⟩, not_exists.mp spelled⟩
  · rintro (⟨⟨t, set⟩, _⟩ | ⟨n, spelled⟩)
    · rw [given?_eq_some_iff.mpr set]
      rfl
    · obtain ⟨t, given, _⟩ := given?_of_spells spelled
      rw [given]
      rfl

theorem integer_of_spells (spelled : env.Spells name n) :
    env.integer name own lo hi = max lo (min n hi) := by
  obtain ⟨t, given, read⟩ := given?_of_spells spelled
  simp only [integer, given, read]

theorem integer_of_not_spells (unspelled : ∀ n, ¬ env.Spells name n) :
    env.integer name own lo hi = own := by
  cases given : env.given? name with
  | none => simp only [integer, given]
  | some t =>
    have set := (given?_eq_some_iff.mp given).1
    cases read : t.trim.integer? with
    | none => simp only [integer, given, read]
    | some n => exact absurd ⟨t, set, Text.spells_iff.mpr read⟩ (unspelled n)

theorem integer_mem (env : Environment) (name : String) (ordered : lo ≤ hi) (above : lo ≤ own)
    (below : own ≤ hi) : lo ≤ env.integer name own lo hi ∧ env.integer name own lo hi ≤ hi := by
  by_cases spelled : ∃ n, env.Spells name n
  · obtain ⟨n, spelled⟩ := spelled
    rw [integer_of_spells spelled]
    omega
  · rw [integer_of_not_spells (not_exists.mp spelled)]
    exact ⟨above, below⟩

theorem integer_integer :
    env.integer name (env.integer name own lo hi) lo hi = env.integer name own lo hi := by
  by_cases spelled : ∃ n, env.Spells name n
  · obtain ⟨n, spelled⟩ := spelled
    rw [integer_of_spells spelled, integer_of_spells spelled]
  · exact integer_of_not_spells (not_exists.mp spelled)

theorem truth_truth {own : Bool} :
    env.truth name (env.truth name own) = env.truth name own := by
  unfold truth
  split <;> rfl

section Congruence

variable (same : env' name = env name)
include same

theorem given?_congr : env'.given? name = env.given? name := by
  rw [given?, given?, same]

theorem integer_congr {own' : Int} (kept : own' = own) :
    env'.integer name own' lo hi = env.integer name own lo hi := by
  rw [integer, integer, given?_congr same, kept]

theorem truth_congr {own own' : Bool} (kept : own' = own) :
    env'.truth name own' = env.truth name own := by
  rw [truth, truth, given?_congr same, kept]

end Congruence

end Environment

namespace Setting

/-- The greatest value of an integer setting; the least one is 1. -/
def greatest : Setting → Int
  | .retries => greatestRetries
  | .fudge => greatestFudge
  | _ => greatestRequirement

/-- The new value of an integer setting is the integer that its variable spells, moved into the range
of the setting; it is its own value where the variable spells none. -/
structure Follows (s : Setting) (env : Environment) (own new : Document) : Prop where
  spelled : ∀ n, env.Spells s.variable n → new = .integer (max 1 (min n s.greatest))
  unspelled : (∀ n, ¬ env.Spells s.variable n) → new = own

/-- The setting is a fudge of none whose variable is set in vain. -/
def Substituted (s : Setting) (env : Environment) (own : Document) : Prop :=
  s = .fudge ∧ own = .null ∧ env.InVain s.variable

/-- What becomes of an integer setting: it follows its variable, or one whole is put in its place. -/
structure Outcome (s : Setting) (env : Environment) (own new : Document) : Prop where
  follows_iff : s.Follows env own new ↔ ¬ s.Substituted env own
  substituted : s.Substituted env own → new = .integer oneWhole

theorem follows_integer (s : Setting) (env : Environment) (own : Int) :
    s.Follows env (.integer own) (.integer (env.integer s.variable own 1 s.greatest)) where
  spelled _ spelled := congrArg Document.integer (Environment.integer_of_spells spelled)
  unspelled unspelled := congrArg Document.integer (Environment.integer_of_not_spells unspelled)

end Setting

namespace Settings

/-- The value of a setting, as the document that it is read from. -/
def value (c : Settings) : Setting → Document
  | .initialRequirement => .integer c.requirements.initial
  | .maintenanceRequirement => .integer c.requirements.maintenance
  | .retries => .integer c.retries
  | .fudge => c.fudge.elim .null .integer
  | .validates => .bool c.validates

/-- The overlaid settings, valid or not. -/
def overlaid (c : Settings) (env : Environment) : Settings where
  requirements :=
    { initial := env.integer Setting.initialRequirement.variable c.requirements.initial 1
        greatestRequirement
      maintenance := env.integer Setting.maintenanceRequirement.variable c.requirements.maintenance
        1 greatestRequirement }
  retries := env.integer Setting.retries.variable c.retries 1 greatestRetries
  fudge := c.fudgeIn env
  validates := env.truth Setting.validates.variable c.validates

variable {b c c' : Settings} {env env' : Environment} {s : Setting}

theorem value_fudge (c : Settings) : c.value .fudge = c.fudge.elim .null .integer := rfl

theorem fudge_overlaid (c : Settings) (env : Environment) :
    (c.overlaid env).fudge = c.fudgeIn env := rfl

theorem overlayEnvironment_eq (c : Settings) (env : Environment) :
    c.overlayEnvironment env = (c.overlaid env).checked := rfl

theorem overlaid_of_overlayEnvironment (done : c.overlayEnvironment env = .ok c') :
    (c.overlaid env).Valid ∧ c.overlaid env = c' :=
  checked_eq_ok.mp done

section Fudge

/-- The fudge takes a way of its own only where there is none to fall back to. -/
theorem fudgeIn_of_some {f : Int} (own : c.fudge = some f) :
    c.fudgeIn env = some (env.integer Setting.fudge.variable f 1 greatestFudge) := by
  unfold fudgeIn
  split
  · rw [own, Option.getD_some]
  · next absent =>
    have unspelled (n : Int) (spelled : env.Spells Setting.fudge.variable n) : False :=
      absent (Environment.isSome_given?_iff.mpr (.inr ⟨n, spelled⟩))
    rw [Environment.integer_of_not_spells unspelled, own]

theorem fudgeIn_of_spells {n : Int} (spelled : env.Spells Setting.fudge.variable n) :
    c.fudgeIn env = some (max 1 (min n greatestFudge)) := by
  rw [fudgeIn, if_pos (Environment.isSome_given?_iff.mpr (.inr ⟨n, spelled⟩)),
    Environment.integer_of_spells spelled]

theorem fudgeIn_of_inVain (own : c.fudge = none) (vain : env.InVain Setting.fudge.variable) :
    c.fudgeIn env = some oneWhole := by
  rw [fudgeIn, if_pos (Environment.isSome_given?_iff.mpr (.inl vain)), own,
    Environment.integer_of_not_spells vain.2, Option.getD_none]

theorem fudgeIn_of_none (own : c.fudge = none)
    (unspelled : ∀ n, ¬ env.Spells Setting.fudge.variable n)
    (vain : ¬ env.InVain Setting.fudge.variable) : c.fudgeIn env = none := by
  rw [fudgeIn, if_neg, own]
  intro given
  rcases Environment.isSome_given?_iff.mp given with set | ⟨n, spelled⟩
  · exact vain set
  · exact unspelled n spelled

theorem fudgeIn_fits (fits : c.FudgeFits) : ∀ f ∈ c.fudgeIn env, 0 < f ∧ f ≤ greatestFudge := by
  intro f member
  cases own : c.fudge with
  | some g =>
    obtain ⟨positive, bounded⟩ := fits g own
    rw [fudgeIn_of_some own] at member
    cases member
    exact Environment.integer_mem env _ (by decide) positive bounded
  | none =>
    unfold fudgeIn at member
    split at member
    · cases member
      rw [own]
      exact Environment.integer_mem env _ (by decide) (by decide) (by decide)
    · rw [own] at member
      cases member

theorem follows_fudge (unsubstituted : ¬ Setting.fudge.Substituted env (c.value .fudge)) :
    Setting.fudge.Follows env (c.value .fudge) ((c.overlaid env).value .fudge) := by
  rw [value_fudge] at unsubstituted
  rw [value_fudge, value_fudge, fudge_overlaid]
  cases own : c.fudge with
  | some f =>
    rw [fudgeIn_of_some own]
    exact Setting.follows_integer .fudge env f
  | none =>
    refine ⟨fun n spelled => by rw [fudgeIn_of_spells spelled]; rfl, fun unspelled => ?_⟩
    have absent : ¬ env.InVain Setting.fudge.variable := fun vain =>
      unsubstituted ⟨rfl, by rw [own]; rfl, vain⟩
    rw [fudgeIn_of_none own unspelled absent]

end Fudge

theorem fudge_eq_of_value {f : Option Int} (own : c.value .fudge = f.elim .null .integer) :
    c.fudge = f := by
  rw [value_fudge] at own
  cases first : c.fudge with
  | none =>
    cases f with
    | none => rfl
    | some g => rw [first] at own; contradiction
  | some g =>
    cases f with
    | none => rw [first] at own; contradiction
    | some h => rw [first] at own; rw [Document.integer.inj own]

/-- A fudge of none whose variable is set in vain becomes one whole. -/
theorem value_of_substituted (substituted : s.Substituted env (c.value s)) :
    (c.overlaid env).value s = .integer oneWhole := by
  obtain ⟨rfl, own, vain⟩ := substituted
  have own : c.fudge = none := fudge_eq_of_value own
  rw [value_fudge, fudge_overlaid, fudgeIn_of_inVain own vain]
  rfl

theorem follows_of_not_substituted (integral : s ∈ integerSettings)
    (unsubstituted : ¬ s.Substituted env (c.value s)) :
    s.Follows env (c.value s) ((c.overlaid env).value s) := by
  cases s with
  | initialRequirement => exact Setting.follows_integer _ env _
  | maintenanceRequirement => exact Setting.follows_integer _ env _
  | retries => exact Setting.follows_integer _ env _
  | fudge => exact follows_fudge unsubstituted
  | validates => simp [integerSettings] at integral

theorem outcome_overlaid (integral : s ∈ integerSettings) :
    s.Outcome env (c.value s) ((c.overlaid env).value s) := by
  refine ⟨⟨fun follows substituted => ?_, follows_of_not_substituted integral⟩, value_of_substituted⟩
  have kept := follows.unspelled substituted.2.2.2
  rw [value_of_substituted substituted, substituted.2.1] at kept
  contradiction

/-- A setting depends on its own value and its own variable, and on nothing else. -/
theorem value_overlaid_congr (own : b.value s = c.value s)
    (same : env' s.variable = env s.variable) :
    (b.overlaid env').value s = (c.overlaid env).value s := by
  cases s with
  | initialRequirement | maintenanceRequirement | retries =>
    exact congrArg Document.integer (Environment.integer_congr same (Document.integer.inj own))
  | fudge =>
    have own : b.fudge = c.fudge := fudge_eq_of_value own
    rw [value_fudge, value_fudge, fudge_overlaid, fudge_overlaid, fudgeIn, fudgeIn, own,
      Environment.given?_congr same, Environment.integer_congr same rfl]
  | validates =>
    exact congrArg Document.bool (Environment.truth_congr same (Document.bool.inj own))

theorem overlaid_overlaid (c : Settings) (env : Environment) :
    (c.overlaid env).overlaid env = c.overlaid env := by
  have fudge : (c.overlaid env).fudgeIn env = c.fudgeIn env := by
    change (if _ then some (env.integer _ ((c.fudgeIn env).getD oneWhole) 1 greatestFudge)
      else c.fudgeIn env) = _
    by_cases given : (env.given? Setting.fudge.variable).isSome
    · rw [if_pos given, fudgeIn, if_pos given, Option.getD_some, Environment.integer_integer]
    · rw [if_neg given]
  unfold overlaid at fudge ⊢
  rw [fudge]
  simp only [Environment.integer_integer, Environment.truth_truth]

section Validity

/-- Each requirement is left in the range of both. -/
theorem requirements_overlaid_mem (env : Environment) (fit : c.RequirementsFit) :
    (1 ≤ (c.overlaid env).requirements.initial ∧
      (c.overlaid env).requirements.initial ≤ greatestRequirement) ∧
    1 ≤ (c.overlaid env).requirements.maintenance ∧
      (c.overlaid env).requirements.maintenance ≤ greatestRequirement := by
  obtain ⟨positive, ordered, bounded⟩ := fit
  have range : 1 ≤ greatestRequirement := by decide
  exact ⟨Environment.integer_mem env _ range (positive.trans_le ordered) bounded,
    Environment.integer_mem env _ range positive (ordered.trans bounded)⟩

theorem valid_overlaid_iff (valid : c.Valid) : (c.overlaid env).Valid ↔
    (c.overlaid env).requirements.maintenance ≤ (c.overlaid env).requirements.initial := by
  obtain ⟨fit, ⟨least, most⟩, fudge⟩ := valid
  obtain ⟨initial, maintenance⟩ := requirements_overlaid_mem env fit
  constructor
  · intro valid
    exact valid.1.2.1
  · intro ordered
    exact ⟨⟨maintenance.1, ordered, initial.2⟩,
      Environment.integer_mem env _ (by decide) least most, fudgeIn_fits fudge⟩

/-- The fault about two requirements in their range has a message. -/
theorem checked_of_reversed (reversed : c.requirements.initial < c.requirements.maintenance)
    (least : 1 ≤ c.requirements.initial) (most : c.requirements.maintenance ≤ greatestRequirement) :
    c.checked = .error
      (.margin (.config (.requirements c.requirements.maintenance c.requirements.initial))) := by
  have unfit : ¬ c.RequirementsFit := fun fit => absurd fit.2.1 (not_le.mpr reversed)
  have writable (n : Int) (above : 1 ≤ n) (below : n ≤ greatestRequirement) : Writable n := by
    refine (short_of_lt ?_).writable
    unfold greatestRequirement at below
    omega
  have first := writable _ (least.trans reversed.le) most
  have second := writable _ least (reversed.le.trans most)
  rw [checked, if_pos unfit, fail, if_pos]
  simp [Fault.cited, MarginFault.cited, ConfigFault.cited, first, second]

end Validity

/-- Valid settings overlaid with an environment are valid exactly if the maintenance requirement does
not exceed the initial one, each of them as its variable leaves it; else the overlay fails with the
fault about the two. -/
theorem overlayEnvironment_returns_iff (c : Settings) (env : Environment) (valid : c.Valid) :
    ∃ initial maintenance : Int,
      Setting.initialRequirement.Follows env (c.value .initialRequirement) (.integer initial) ∧
      Setting.maintenanceRequirement.Follows env (c.value .maintenanceRequirement)
        (.integer maintenance) ∧
      ((∃ c', c.overlayEnvironment env = .ok c' ∧ c'.Valid) ↔ maintenance ≤ initial) ∧
      (initial < maintenance → c.overlayEnvironment env =
        .error (.margin (.config (.requirements maintenance initial)))) := by
  obtain ⟨initial, maintenance⟩ := requirements_overlaid_mem env valid.1
  refine ⟨(c.overlaid env).requirements.initial, (c.overlaid env).requirements.maintenance,
    Setting.follows_integer _ env _, Setting.follows_integer _ env _, ?_, ?_⟩
  · rw [← valid_overlaid_iff valid]
    constructor
    · rintro ⟨c', done, _⟩
      exact (overlaid_of_overlayEnvironment done).1
    · intro valid
      exact ⟨_, checked_eq_ok.mpr ⟨valid, rfl⟩, valid⟩
  · intro reversed
    exact checked_of_reversed reversed initial.1 maintenance.2

theorem valid_default : ({} : Settings).Valid := ⟨by decide, by decide, by decide⟩

/-- A requirement of zero becomes the least one there is, which is below the other one. -/
theorem overlayEnvironment_returns_iff_zero : ({} : Settings).Valid ∧
    overlayEnvironment {} (.single Setting.initialRequirement.variable "0") =
      .error (.margin (.config (.requirements 1030000 1))) := by
  refine ⟨valid_default, ?_⟩
  have zero : Environment.Spells (.single Setting.initialRequirement.variable "0")
      Setting.initialRequirement.variable 0 := ⟨"0", rfl, Text.spells_iff.mpr (by decide)⟩
  obtain ⟨initial, maintenance, raised, kept, _, fails⟩ := overlayEnvironment_returns_iff {}
    (.single Setting.initialRequirement.variable "0") valid_default
  obtain rfl : initial = 1 := Document.integer.inj (raised.spelled 0 zero)
  obtain rfl : maintenance = 1030000 := Document.integer.inj (kept.unspelled (by
    rintro n ⟨t, set, _⟩
    cases set))
  exact fails (by decide)

/-- Not every environment leaves valid settings valid. -/
theorem not_overlayEnvironment_returns : ¬ ∀ (c : Settings) (env : Environment), c.Valid →
    ∃ c', c.overlayEnvironment env = .ok c' ∧ c'.Valid := by
  intro total
  obtain ⟨c', done, valid⟩ := total {} (.single Setting.initialRequirement.variable "0") valid_default
  have unordered : ¬ (overlaid {} (.single Setting.initialRequirement.variable "0")).RequirementsFit := by
    decide
  exact unordered (overlaid_of_overlayEnvironment done).1.1

end Settings
end Solvency
