import Solvency.Proofs.EnvironmentOverlay
import Solvency.Proofs.Loading

/-! Where loaded settings come from. Each one is what the last member of the file under its key says,
or the default, before the environment is laid over it. -/
namespace Solvency

/-- The value of the last member with a text key. -/
def Members.last? (ms : Members) (key : String) : Option Document := Members.get? ms.reverse key

theorem Members.last?_cons (m : Document × Document) (ms : Members) (key : String) :
    Members.last? (m :: ms) key = (ms.last? key).or (Members.get? [m] key) := by
  rw [last?, List.reverse_cons, get?_append]
  rfl

namespace Setting

theorem key_inj {s t : Setting} : Text.ofString s.key = Text.ofString t.key ↔ s = t := by
  rw [Text.ofString_inj]
  cases s <;> cases t <;> decide

theorem ofKey?_eq_some_iff {key : Text} {s : Setting} :
    ofKey? key = some s ↔ key = Text.ofString s.key := by
  constructor
  · intro found
    have same := List.find?_some found
    exact (of_decide_eq_true same).symm
  · rintro rfl
    cases s <;> decide

end Setting

namespace Settings

variable {c c' : Settings} {s : Setting}

/-- Setting one of them to a document gives it that value and leaves the others. -/
theorem value_of_set {d : Document} (done : c.set s d = .ok c') (other : Setting) :
    c'.value other = if s = other then d else c.value other := by
  cases s <;> cases d
  all_goals first
    | cases done; cases other <;> rfl
    | exact absurd done (fail_ne_ok _ _)

/-- The last member under its key gives a setting its value. -/
theorem value_of_setAll {ms : Members} (done : c.setAll ms = .ok c') (s : Setting) :
    c'.value s = (ms.last? s.key).getD (c.value s) := by
  fun_induction setAll c ms with
  | case1 => cases done; rfl
  | case2 c key d ms other found ih =>
    obtain ⟨c₁, first, done⟩ := bind_eq_ok.mp done
    obtain rfl := Setting.ofKey?_eq_some_iff.mp found
    rw [ih c₁ done, value_of_set first, Members.last?_cons, Members.get?_text]
    simp only [Setting.key_inj]
    cases Members.last? ms s.key <;> by_cases same : other = s <;> simp [same]
  | case3 c key d ms unknown ih =>
    have foreign : key ≠ Text.ofString s.key := fun same => by
      rw [Setting.ofKey?_eq_some_iff.mpr same] at unknown
      contradiction
    rw [ih done, Members.last?_cons, Members.get?_text, if_neg foreign, Option.or_none]
  | case4 c m ms other ih =>
    have foreign : Members.get? [m] s.key = none := by
      obtain ⟨k, d⟩ := m
      cases k with
      | text key => exact absurd rfl (other key d)
      | _ => rfl
    rw [ih done, Members.last?_cons, foreign, Option.or_none]

/-- What the file, if there is one, says about the settings; one that is empty says nothing. -/
def Filed (host : Host) (d : Directory) : Option Text → Members → Prop
  | none, ms => ms = []
  | some path, ms => ∃ cs, d.text (Path.ofText path) = .ok cs ∧
      (host.settings cs = .ok (.mapping ms) ∨ host.settings cs = .ok .null ∧ ms = [])

/-- The value of a setting before the environment is laid over it. -/
def filedValue (ms : Members) (s : Setting) : Document :=
  (ms.last? s.key).getD (value {} s)

theorem value_of_overlay {ms : Members} (done : overlay {} ms = .ok c) (s : Setting) :
    c.value s = filedValue ms s := by
  obtain ⟨_, _, done⟩ := bind_eq_ok.mp done
  obtain ⟨_, set, done⟩ := bind_eq_ok.mp done
  obtain ⟨_, rfl⟩ := checked_eq_ok.mp done
  exact value_of_setAll set s

/-- Loading lays the environment over what the file says. -/
theorem filed_of_load {host : Host} {d : Directory} {path : Option Text} {env : Environment}
    (done : load host d path env = .ok c') : ∃ ms, Filed host d path ms ∧
      ∃ c : Settings, (∀ s, c.value s = filedValue ms s) ∧ c.overlayEnvironment env = .ok c' := by
  cases path with
  | none => exact ⟨[], rfl, {}, fun _ => rfl, done⟩
  | some path =>
    obtain ⟨c, read, done⟩ := bind_eq_ok.mp done
    obtain ⟨cs, text, read⟩ := bind_eq_ok.mp read
    obtain ⟨document, parsed, read⟩ := bind_eq_ok.mp read
    cases document with
    | null => exact ⟨[], ⟨cs, text, .inr ⟨parsed, rfl⟩⟩, c, value_of_overlay read, done⟩
    | mapping ms => exact ⟨ms, ⟨cs, text, .inl parsed⟩, c, value_of_overlay read, done⟩
    | _ => exact absurd read (fail_ne_ok _ _)

/-- The environment is laid over settings one by one, and a second time it changes nothing. Each
integer setting follows its own variable, over the file and the defaults when settings are loaded;
only a fudge of none whose variable is set in vain does not, but becomes one whole. -/
theorem overlayEnvironment_fieldwise (env : Environment) :
    (∀ c c' : Settings, c.overlayEnvironment env = .ok c' →
      (∀ s ∈ integerSettings, s.Outcome env (c.value s) (c'.value s)) ∧
      (∀ (b b' : Settings) (env' : Environment) (s : Setting),
        b.overlayEnvironment env' = .ok b' → b.value s = c.value s →
        env' s.variable = env s.variable → b'.value s = c'.value s) ∧
      c'.overlayEnvironment env = .ok c') ∧
    ∀ (host : Host) (d : Directory) (path : Option Text) (c' : Settings),
      load host d path env = .ok c' → ∃ ms, Filed host d path ms ∧
        ∀ s ∈ integerSettings, s.Outcome env (filedValue ms s) (c'.value s) := by
  constructor
  · intro c c' done
    obtain ⟨valid, rfl⟩ := overlaid_of_overlayEnvironment done
    refine ⟨fun s => outcome_overlaid, fun b b' env' s done own same => ?_, ?_⟩
    · obtain ⟨_, rfl⟩ := overlaid_of_overlayEnvironment done
      exact value_overlaid_congr own same
    · rw [overlayEnvironment_eq, overlaid_overlaid]
      exact checked_eq_ok.mpr ⟨valid, rfl⟩
  · intro host d path c' done
    obtain ⟨ms, filed, c, own, done⟩ := filed_of_load done
    obtain ⟨_, rfl⟩ := overlaid_of_overlayEnvironment done
    exact ⟨ms, filed, fun s integral => own s ▸ outcome_overlaid integral⟩

/-- A file with two of the settings. -/
def engineFile : Directory :=
  ⟨[("engine.yaml", "submit_retries: 3\nspot_maint_margin_req: 1000000\n".toUTF8)]⟩

/-- A variable in grouped digits with white space around them wins over the file. -/
theorem overlayEnvironment_fieldwise_retries :
    let env := Environment.single Setting.retries.variable " +0_7 "
    let loaded : Settings := { requirements := { maintenance := 1000000 }, retries := 7 }
    load .usual engineFile (some "engine.yaml") env = .ok loaded ∧
    (∃ ms, Filed .usual engineFile (some "engine.yaml") ms ∧
      ∀ s ∈ integerSettings, s.Outcome env (filedValue ms s) (loaded.value s)) ∧
    overlayEnvironment {} env = .ok { retries := 7 } ∧
    (∀ s ∈ integerSettings, s.Outcome env (value {} s) (value { retries := 7 } s)) := by
  intro env loaded
  have ok_of_toOption {x : Except Fault Settings} {c : Settings} (some : x.toOption = .some c) :
      x = .ok c := by
    cases x with
    | ok _ => exact congrArg Except.ok (Option.some.inj some)
    | error _ => contradiction
  have filed : load .usual engineFile (some "engine.yaml") env = .ok loaded :=
    ok_of_toOption (by decide +kernel)
  have alone : overlayEnvironment {} env = .ok { retries := 7 } :=
    ok_of_toOption (by decide +kernel)
  exact ⟨filed, (overlayEnvironment_fieldwise env).2 _ _ _ _ filed, alone,
    ((overlayEnvironment_fieldwise env).1 _ _ alone).1⟩

/-- A fudge of none does not stay none when its variable is set to what is no integer. -/
theorem not_overlayEnvironment_follows : ¬ ∀ (c c' : Settings) (env : Environment), c.Valid →
    c.overlayEnvironment env = .ok c' →
      ∀ s ∈ integerSettings, s.Follows env (c.value s) (c'.value s) := by
  intro follows
  let env := Environment.single Setting.fudge.variable "_1"
  have valid : (overlaid {} env).Valid := ⟨by decide, by decide, by decide⟩
  have done : overlayEnvironment {} env = .ok (overlaid {} env) := checked_eq_ok.mpr ⟨valid, rfl⟩
  have unspelled : ∀ n, ¬ env.Spells Setting.fudge.variable n := by
    rintro n ⟨t, set, spelled⟩
    cases set
    have read := Text.spells_iff.mp spelled
    have none : (Text.ofString "_1").trim.integer? = none := by decide
    rw [none] at read
    contradiction
  have kept := (follows _ _ env valid_default done .fudge (by decide)).unspelled unspelled
  have raised : (overlaid {} env).value .fudge = .integer oneWhole := by rfl
  rw [raised] at kept
  contradiction

end Settings
end Solvency
