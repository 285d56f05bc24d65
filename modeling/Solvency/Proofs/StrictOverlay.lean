import Solvency.Proofs.KeyOrder
import Solvency.Proofs.SettingSources

/-! Settings taken strictly from a mapping. They are replaced just as the mapping says if each of its
members names a setting and holds a value of its kind, and if all settings are in their ranges then.
Else there is a fault of configuration, which lists in order the keys that are no settings; only keys
that are no texts cannot be listed, and an integer out of range that has no numeral cannot be cited. -/
namespace Solvency

/-- A fault of configuration. -/
def Fault.Configures (f : Fault) : Prop := ∃ cause, f = .margin (.config cause)

theorem Fault.Configures.ne {f : Fault} (configures : f.Configures) :
    f ≠ .unorderedKeys ∧ f ≠ .digitLimit := by
  obtain ⟨cause, rfl⟩ := configures
  exact ⟨nofun, nofun⟩

/-- The documents that a setting is read from. -/
def Setting.Admits : Setting → Document → Prop
  | .validates, d => ∃ b, d = .bool b
  | .fudge, d => d = .null ∨ ∃ n, d = .integer n
  | _, d => ∃ n, d = .integer n

namespace Members

/-- A key of the members is no text. -/
def Unlistable (ms : Members) : Prop := ∃ m ∈ ms, ∀ t, m.1 ≠ .text t

/-- The text is a key of the members, but of no setting. -/
def Unknown (ms : Members) (t : Text) : Prop :=
  (∃ d, (.text t, d) ∈ ms) ∧ ∀ s : Setting, t ≠ Text.ofString s.key

/-- Each key is that of a setting. -/
def Named (ms : Members) : Prop := ∀ m ∈ ms, ∃ s : Setting, m.1 = .text (Text.ofString s.key)

/-- Each member gives a setting a value of its kind. -/
def Proper (ms : Members) : Prop :=
  ∀ m ∈ ms, ∃ s : Setting, m.1 = .text (Text.ofString s.key) ∧ s.Admits m.2

variable {ms : Members}

theorem Proper.named (proper : ms.Proper) : ms.Named := fun m member =>
  (proper m member).imp fun _ => And.left

theorem Named.not_unlistable (named : ms.Named) : ¬ ms.Unlistable := by
  rintro ⟨m, member, textless⟩
  obtain ⟨s, same⟩ := named m member
  exact textless _ same

theorem Named.not_unknown (named : ms.Named) (t : Text) : ¬ ms.Unknown t := by
  rintro ⟨⟨d, member⟩, foreign⟩
  obtain ⟨s, same⟩ := named _ member
  exact foreign s (Document.text.inj same)

end Members

namespace Setting

theorem ofKey?_eq_none_iff {t : Text} :
    ofKey? t = none ↔ ∀ s : Setting, t ≠ Text.ofString s.key := by
  constructor
  · rintro unknown s rfl
    rw [ofKey?_eq_some_iff.mpr rfl] at unknown
    contradiction
  · intro foreign
    cases found : ofKey? t with
    | none => rfl
    | some s => exact absurd (ofKey?_eq_some_iff.mp found) (foreign s)

end Setting

namespace Settings

variable {c c' : Settings} {ms : Members} {keys : List Document}

section Keys

/-- The texts among the keys that are no settings, each once. -/
structure Foreign (keys : List Document) (unknown : List Text) : Prop where
  nodup : unknown.Nodup
  mem_iff : ∀ t, t ∈ unknown ↔ .text t ∈ keys ∧ Setting.ofKey? t = none

/-- A key in front of the others is listed unless it is a setting or listed already. -/
theorem Foreign.cons {key : Text} {unknown : List Text} (rest : Foreign keys unknown) :
    Foreign (.text key :: keys)
      (if (Setting.ofKey? key).isSome || unknown.contains key then unknown else key :: unknown) := by
  split
  · rename_i skipped
    refine ⟨rest.nodup, fun t => ?_⟩
    rw [rest.mem_iff, List.mem_cons, Document.text.injEq]
    refine ⟨fun ⟨member, foreign⟩ => ⟨.inr member, foreign⟩, ?_⟩
    rintro ⟨rfl | member, foreign⟩
    · simp only [foreign, Option.isSome_none, Bool.false_or, List.contains_iff_mem] at skipped
      exact (rest.mem_iff t).mp skipped
    · exact ⟨member, foreign⟩
  · rename_i listed
    simp only [Bool.or_eq_true, List.contains_iff_mem, not_or, Bool.not_eq_true,
      Option.isSome_eq_false_iff, Option.isNone_iff_eq_none] at listed
    refine ⟨List.nodup_cons.mpr ⟨listed.2, rest.nodup⟩, fun t => ?_⟩
    rw [List.mem_cons, rest.mem_iff, List.mem_cons, Document.text.injEq]
    constructor
    · rintro (rfl | ⟨member, foreign⟩)
      · exact ⟨.inl rfl, listed.1⟩
      · exact ⟨.inr member, foreign⟩
    · rintro ⟨rfl | member, foreign⟩
      · exact .inl rfl
      · exact .inr ⟨member, foreign⟩

theorem unknownKeys_ends (keys : List Document) :
    Ends (fun f => f = .unorderedKeys ∧ ∃ k ∈ keys, ∀ t, k ≠ .text t)
      (fun unknown => (∀ k ∈ keys, ∃ t, k = .text t) ∧ Foreign keys unknown)
      (unknownKeys keys) := by
  fun_induction unknownKeys keys with
  | case1 => exact ⟨by simp, List.nodup_nil, by simp⟩
  | case2 key keys ih =>
    refine Ends.bind (ih.faults ?_) fun unknown rest => ?_
    · rintro f ⟨same, k, member, textless⟩
      exact ⟨same, k, List.mem_cons_of_mem _ member, textless⟩
    · exact ⟨List.forall_mem_cons.mpr ⟨⟨key, rfl⟩, rest.1⟩, rest.2.cons⟩
  | case3 keys nonempty textless =>
    obtain ⟨k, rest, rfl⟩ := List.exists_cons_of_ne_nil nonempty
    refine ⟨rfl, k, List.mem_cons_self, ?_⟩
    rintro t rfl
    exact textless t rest rfl

/-- The texts are the keys of the members that are no settings, in ascending order. -/
structure Lists (ms : Members) (unknown : List Text) : Prop where
  ascending : unknown.Pairwise fun a b => a.before b = true
  mem_iff : ∀ t, t ∈ unknown ↔ ms.Unknown t

theorem Foreign.lists {unknown : List Text} (foreign : Foreign (ms.map (·.1)) unknown) :
    Lists ms (sortOrdered (fun a b => b.before a) unknown) where
  ascending := (Text.ascending_iff_nodup (pairwise_sortOrdered id unknown)).mpr
    ((perm_sortOrdered _ unknown).nodup_iff.mpr foreign.nodup)
  mem_iff t := by
    rw [mem_sortOrdered, foreign.mem_iff, Setting.ofKey?_eq_none_iff]
    simp [Members.Unknown]

/-- Keys pass if all of them are settings. -/
theorem checkKeys_ends (ms : Members) :
    Ends
      (fun f => f = .unorderedKeys ∧ ms.Unlistable ∨ ¬ ms.Unlistable ∧ ∃ unknown, unknown ≠ [] ∧
        Lists ms unknown ∧ f = .margin (.config (.unknownKeys unknown)))
      (fun _ => ms.Named)
      (checkKeys (ms.map (·.1))) := by
  refine Ends.bind ((unknownKeys_ends _).faults ?_) fun unknown listed => ?_
  · rintro f ⟨same, k, member, textless⟩
    obtain ⟨m, listed, rfl⟩ := List.mem_map.mp member
    exact .inl ⟨same, m, listed, textless⟩
  · obtain ⟨texts, foreign⟩ := listed
    rw [List.forall_mem_map] at texts
    split
    · intro m member
      obtain ⟨t, text⟩ := texts m member
      -- The key of no setting would be listed, and nothing is.
      by_contra nameless
      have unknown : t ∈ ([] : List Text) := by
        rw [foreign.mem_iff, Setting.ofKey?_eq_none_iff]
        refine ⟨List.mem_map.mpr ⟨m, member, text⟩, fun s same => nameless ⟨s, ?_⟩⟩
        rw [text, same]
      exact List.not_mem_nil unknown
    · rename_i _ nonempty
      refine Ends.fail (.inr ⟨?_, _, ?_, foreign.lists, rfl⟩) fun uncited => ?_
      · rintro ⟨m, member, textless⟩
        obtain ⟨t, text⟩ := texts m member
        exact textless t text
      · intro empty
        have perm := perm_sortOrdered (fun a b : Text => b.before a) unknown
        rw [empty] at perm
        exact nonempty perm.symm.eq_nil
      · exact absurd (by simp [Fault.cited, MarginFault.cited, ConfigFault.cited]) uncited

end Keys

section Values

theorem set_ends (c : Settings) (s : Setting) (d : Document) :
    Ends (fun f => f.Configures ∧ ¬ s.Admits d) (fun _ => s.Admits d) (c.set s d) := by
  cases s <;> cases d
  all_goals first
    | exact ⟨_, rfl⟩
    | exact .inl rfl
    | exact .inr ⟨_, rfl⟩
    | exact ⟨⟨_, rfl⟩, by simp [Setting.Admits]⟩

/-- Members that are all settings are taken over if each is of its kind. -/
theorem setAll_ends (c : Settings) (named : ms.Named) :
    Ends (fun f => f.Configures ∧ ¬ ms.Proper) (fun _ => ms.Proper) (c.setAll ms) := by
  fun_induction setAll c ms with
  | case1 => exact fun m member => absurd member List.not_mem_nil
  | case2 c key d ms s found ih =>
    obtain rfl := Setting.ofKey?_eq_some_iff.mp found
    -- The keys of settings differ, so the first member can give a value to this one only.
    have own : ∀ t : Setting, Document.text (Text.ofString s.key) = .text (Text.ofString t.key) →
        t = s := fun t same => (Setting.key_inj.mp (Document.text.inj same)).symm
    refine Ends.bind ((set_ends c s d).faults ?_) fun c' admitted => ?_
    · rintro f ⟨configures, refused⟩
      refine ⟨configures, fun proper => ?_⟩
      obtain ⟨t, same, admitted⟩ := proper _ List.mem_cons_self
      obtain rfl := own t same
      exact refused admitted
    · refine (ih c' fun m member => named m (List.mem_cons_of_mem _ member)).imp ?_ ?_
      · rintro f ⟨configures, improper⟩
        exact ⟨configures, fun proper => improper fun m member =>
          proper m (List.mem_cons_of_mem _ member)⟩
      · exact fun _ proper => List.forall_mem_cons.mpr ⟨⟨s, rfl, admitted⟩, proper⟩
  | case3 c key d ms unknown ih =>
    obtain ⟨s, same⟩ := named _ List.mem_cons_self
    rw [Setting.ofKey?_eq_some_iff.mpr (Document.text.inj same)] at unknown
    contradiction
  | case4 c m ms other ih =>
    obtain ⟨s, same⟩ := named _ List.mem_cons_self
    exact (other _ _ (Prod.ext same rfl)).elim

theorem eq_of_value (same : ∀ s, c.value s = c'.value s) : c = c' := by
  have initial := Document.integer.inj (same .initialRequirement)
  have maintenance := Document.integer.inj (same .maintenanceRequirement)
  have retries := Document.integer.inj (same .retries)
  have fudge : c.fudge = c'.fudge := fudge_eq_of_value (same .fudge)
  have validates := Document.bool.inj (same .validates)
  obtain ⟨⟨_, _⟩, _, _, _⟩ := c
  obtain ⟨⟨_, _⟩, _, _, _⟩ := c'
  simp_all

/-- The other settings are these with the members in place of their own, of those with one key the
last. -/
def Replaced (c : Settings) (ms : Members) (c' : Settings) : Prop :=
  ∀ s, c'.value s = (ms.last? s.key).getD (c.value s)

theorem Replaced.unique {b : Settings} (first : c.Replaced ms b) (second : c.Replaced ms c') :
    b = c' :=
  eq_of_value fun s => (first s).trans (second s).symm

end Values

section Ranges

/-- The first range that the settings are out of is one of an integer without a numeral. -/
def Overlong (c : Settings) : Prop :=
  ¬ (Writable c.requirements.maintenance ∧ Writable c.requirements.initial) ∨
  c.RequirementsFit ∧ ¬ Writable c.retries ∨
  c.RequirementsFit ∧ c.RetriesFit ∧ ∃ f ∈ c.fudge, ¬ Writable f

theorem writable_of_range {n : Int} (least : 1 ≤ n) (most : n ≤ greatestRequirement) :
    Writable n := by
  refine (short_of_lt ?_).writable
  unfold greatestRequirement at most
  omega

theorem RequirementsFit.writable (fit : c.RequirementsFit) :
    Writable c.requirements.maintenance ∧ Writable c.requirements.initial := by
  obtain ⟨positive, ordered, bounded⟩ := fit
  exact ⟨writable_of_range positive (ordered.trans bounded),
    writable_of_range (Int.le_trans positive ordered) bounded⟩

theorem RetriesFit.writable (fit : c.RetriesFit) : Writable c.retries :=
  writable_of_range fit.1 (fit.2.trans (by decide))

theorem FudgeFits.writable (fits : c.FudgeFits) : ∀ f ∈ c.fudge, Writable f := fun f own =>
  writable_of_range (fits f own).1 ((fits f own).2.trans (by decide))

theorem Valid.not_overlong (valid : c.Valid) : ¬ c.Overlong := by
  obtain ⟨requirements, retries, fudge⟩ := valid
  rintro (long | ⟨_, long⟩ | ⟨_, _, f, own, long⟩)
  · exact long requirements.writable
  · exact long retries.writable
  · exact long (fudge.writable f own)

/-- How settings out of range are refused. -/
def RangeFault (c : Settings) (f : Fault) : Prop :=
  ¬ c.Valid ∧ (f = .digitLimit ∧ c.Overlong ∨ f.Configures ∧ ¬ c.Overlong)

theorem refused_ends {α : Type} {Q : α → Prop} {cause : ConfigFault} (invalid : ¬ c.Valid)
    (long : c.Overlong ↔ ¬ ∀ n ∈ cause.cited, Writable n) :
    Ends c.RangeFault Q (fail (.margin (.config cause))) := by
  by_cases cited : ∀ n ∈ cause.cited, Writable n
  · have brief : ¬ c.Overlong := fun overlong => long.mp overlong cited
    exact Ends.fail ⟨invalid, .inr ⟨⟨cause, rfl⟩, brief⟩⟩ fun uncited => absurd cited uncited
  · unfold fail
    rw [if_neg (by simpa [Fault.cited, MarginFault.cited] using cited)]
    exact ⟨invalid, .inl ⟨rfl, long.mpr cited⟩⟩

/-- Settings out of range are refused with the first range that they are out of, unless there is no
numeral for what stands in its place. -/
theorem checked_ends (c : Settings) :
    Ends c.RangeFault (fun c' => c = c' ∧ c'.Valid) c.checked := by
  unfold checked
  -- The first range that is not kept is cited; the numbers of those before it are short.
  split
  · rename_i unfit
    refine refused_ends (fun valid => unfit valid.1) ?_
    simp [ConfigFault.cited, Overlong, unfit]
  split
  · rename_i fit unfit
    have fit := not_not.mp fit
    refine refused_ends (fun valid => unfit valid.2.1) ?_
    simp [ConfigFault.cited, Overlong, fit, fit.writable, unfit]
  split
  · rename_i fit fit' unfit
    have fit := not_not.mp fit
    have fit' := not_not.mp fit'
    refine refused_ends (fun valid => unfit valid.2.2) ?_
    cases own : c.fudge with
    | none => simp [FudgeFits, own] at unfit
    | some f => simp [ConfigFault.cited, Overlong, fit, fit.writable, fit', fit'.writable, own]
  · rename_i fit fit' fit''
    exact ⟨rfl, not_not.mp fit, not_not.mp fit', not_not.mp fit''⟩

end Ranges

/-- Why a mapping is not laid over settings. -/
inductive Refusal (c : Settings) (ms : Members) : Fault → Prop where
  | unlistable : ms.Unlistable → Refusal c ms .unorderedKeys
  | unknown {keys : List Text} : ¬ ms.Unlistable → keys ≠ [] → Lists ms keys →
    Refusal c ms (.margin (.config (.unknownKeys keys)))
  | improper {f : Fault} : ms.Named → ¬ ms.Proper → f.Configures → Refusal c ms f
  | range {f : Fault} {c' : Settings} : ms.Proper → c.Replaced ms c' → c'.RangeFault f →
    Refusal c ms f

theorem overlay_ends (c : Settings) (ms : Members) :
    Ends (Refusal c ms) (fun c' => ms.Proper ∧ c.Replaced ms c' ∧ c'.Valid) (c.overlay ms) := by
  refine Ends.bind ((checkKeys_ends ms).faults ?_) fun _ named => ?_
  · rintro f (⟨rfl, unlistable⟩ | ⟨listable, keys, nonempty, lists, rfl⟩)
    · exact .unlistable unlistable
    · exact .unknown listable nonempty lists
  refine ((setAll_ends c named).faults ?_).run.bind fun c₁ ⟨set, proper⟩ => ?_
  · rintro f ⟨configures, improper⟩
    exact .improper named improper configures
  have replaced : c.Replaced ms c₁ := value_of_setAll set
  refine (checked_ends c₁).imp (fun f => .range proper replaced) ?_
  rintro _ ⟨rfl, valid⟩
  exact ⟨proper, replaced, valid⟩

section Causes

variable {f : Fault}

theorem Refusal.unordered_iff (refusal : Refusal c ms f) : f = .unorderedKeys ↔ ms.Unlistable := by
  cases refusal with
  | unlistable unlistable => exact iff_of_true rfl unlistable
  | unknown listable _ _ => exact iff_of_false nofun listable
  | improper named _ configures => exact iff_of_false configures.ne.1 named.not_unlistable
  | range proper _ fault =>
    refine iff_of_false ?_ proper.named.not_unlistable
    rcases fault.2 with ⟨rfl, _⟩ | ⟨configures, _⟩
    · nofun
    · exact configures.ne.1

/-- Members that all give a setting a value of its kind are refused for a range only. -/
theorem Refusal.out_of_range (refusal : Refusal c ms f) (proper : ms.Proper)
    (replaced : c.Replaced ms c') : c'.RangeFault f := by
  cases refusal with
  | unlistable unlistable => exact absurd unlistable proper.named.not_unlistable
  | unknown _ nonempty lists =>
    obtain ⟨t, member⟩ := List.exists_mem_of_ne_nil _ nonempty
    exact absurd ((lists.mem_iff t).mp member) (proper.named.not_unknown t)
  | improper _ improper _ => exact absurd proper improper
  | range _ replaced' fault =>
    obtain rfl := replaced.unique replaced'
    exact fault

theorem Refusal.digitLimit_iff (refusal : Refusal c ms f) :
    f = .digitLimit ↔ ms.Proper ∧ ∃ c', c.Replaced ms c' ∧ c'.Overlong := by
  constructor
  · rintro rfl
    cases refusal with
    | improper _ _ configures => exact absurd rfl configures.ne.2
    | @range _ c' proper replaced fault =>
      rcases fault.2 with ⟨_, long⟩ | ⟨configures, _⟩
      · exact ⟨proper, c', replaced, long⟩
      · exact absurd rfl configures.ne.2
  · rintro ⟨proper, c', replaced, long⟩
    rcases (refusal.out_of_range proper replaced).2 with ⟨same, _⟩ | ⟨_, brief⟩
    · exact same
    · exact absurd long brief

theorem Refusal.configures (refusal : Refusal c ms f) (unordered : f ≠ .unorderedKeys)
    (unlimited : f ≠ .digitLimit) : f.Configures := by
  cases refusal with
  | unlistable _ => exact absurd rfl unordered
  | unknown _ _ _ => exact ⟨_, rfl⟩
  | improper _ _ configures => exact configures
  | range _ _ fault =>
    rcases fault.2 with ⟨same, _⟩ | ⟨configures, _⟩
    · exact absurd same unlimited
    · exact configures

theorem Refusal.lists (refusal : Refusal c ms f) (listable : ¬ ms.Unlistable) {t : Text}
    (unknown : ms.Unknown t) : ∃ keys, Lists ms keys ∧ f = .margin (.config (.unknownKeys keys)) := by
  cases refusal with
  | unlistable unlistable => exact absurd unlistable listable
  | @unknown keys _ _ lists => exact ⟨keys, lists, rfl⟩
  | improper named _ _ => exact absurd unknown (named.not_unknown t)
  | range proper _ _ => exact absurd unknown (proper.named.not_unknown t)

end Causes

/-- A mapping is laid over settings exactly if its members give settings values of their kind and all
ranges are kept, and then these settings and no others are replaced. Else the fault is one of
configuration, and it lists the unknown keys in order if there are any; the exceptions are a key that
is no text and an integer out of range without a numeral. -/
theorem overlay_strict (c : Settings) (ms : Members) :
    (∀ c', c.overlay ms = .ok c' ↔ ms.Proper ∧ c.Replaced ms c' ∧ c'.Valid) ∧
    (∀ f, c.overlay ms = .error f → f ≠ .unorderedKeys → f ≠ .digitLimit → f.Configures) ∧
    (c.overlay ms = .error .unorderedKeys ↔ ms.Unlistable) ∧
    (c.overlay ms = .error .digitLimit ↔ ms.Proper ∧ ∃ c', c.Replaced ms c' ∧ c'.Overlong) ∧
    (¬ ms.Unlistable → ∀ t, ms.Unknown t → ∃ keys,
      Lists ms (ConfigFault.unknownKeys keys).violations ∧
      c.overlay ms = .error (.margin (.config (.unknownKeys keys)))) := by
  have ends := overlay_ends c ms
  cases ended : c.overlay ms with
  | ok c₁ =>
    obtain ⟨proper, replaced, valid⟩ := ends.result ended
    refine ⟨fun c' => ?_, nofun, iff_of_false nofun proper.named.not_unlistable,
      iff_of_false nofun ?_, fun _ t unknown => absurd unknown (proper.named.not_unknown t)⟩
    · rw [Except.ok.injEq]
      constructor
      · rintro rfl
        exact ⟨proper, replaced, valid⟩
      · exact fun ⟨_, replaced', _⟩ => replaced.unique replaced'
    · rintro ⟨_, c', replaced', long⟩
      obtain rfl := replaced.unique replaced'
      exact valid.not_overlong long
  | error f =>
    have refusal := ends.fault ended
    simp only [Except.error.injEq]
    refine ⟨fun c' => iff_of_false nofun ?_, ?_, refusal.unordered_iff, refusal.digitLimit_iff,
      fun listable t unknown => refusal.lists listable unknown⟩
    · rintro ⟨proper, replaced, valid⟩
      exact (refusal.out_of_range proper replaced).1 valid
    · rintro _ rfl
      exact refusal.configures

/-- Null takes the fudge away; of keys that are no settings both are listed, and no value is looked at.
-/
theorem overlay_strict_listed :
    let taken : Members := [("liquidation_fudge_permille", .null), ("submit_retries", .integer 7)]
    let foreign : Members :=
      [("max_markets", .integer 10), ("submit_retries", .bool true), ("bogus", .null)]
    overlay { fudge := some 1100 } taken = .ok { retries := 7 } ∧
    ¬ foreign.Unlistable ∧ foreign.Unknown "bogus" ∧
    ∃ keys, Lists foreign (ConfigFault.unknownKeys keys).violations ∧
      overlay {} foreign = .error (.margin (.config (.unknownKeys keys))) := by
  intro taken foreign
  have proper : taken.Proper := by
    intro m member
    simp only [taken, List.mem_cons, List.not_mem_nil, or_false] at member
    rcases member with rfl | rfl
    · exact ⟨.fudge, rfl, .inl rfl⟩
    · exact ⟨.retries, rfl, 7, rfl⟩
  have replaced : Replaced { fudge := some 1100 } taken { retries := 7 } := by
    intro s
    cases s <;> rfl
  have valid : ({ retries := 7 } : Settings).Valid := ⟨by decide, by decide, by decide⟩
  have listable : ¬ foreign.Unlistable := by
    rintro ⟨m, member, textless⟩
    simp only [foreign, List.mem_cons, List.not_mem_nil, or_false] at member
    rcases member with rfl | rfl | rfl
    all_goals exact textless _ rfl
  have unknown : foreign.Unknown "bogus" := by
    refine ⟨⟨.null, by simp [foreign]⟩, fun s => ?_⟩
    cases s <;> decide
  exact ⟨((overlay_strict _ taken).1 _).mpr ⟨proper, replaced, valid⟩, listable, unknown,
    (overlay_strict {} foreign).2.2.2.2 listable "bogus" unknown⟩

/-- A key that is no text is refused with another fault. -/
theorem not_overlay_configures : ¬ ∀ (c : Settings) (ms : Members) (f : Fault), c.Valid →
    c.overlay ms = .error f → f.Configures := by
  intro strict
  obtain ⟨cause, same⟩ :=
    strict {} [(.integer 1, .integer 2)] .unorderedKeys valid_default rfl
  contradiction

end Settings
end Solvency
