import Solvency.Json.Value
import Solvency.Proofs.Reading
import Solvency.Snapshot.Load

/-! Keys of the documents that the readers give. Members that are put together one by one hold no key
twice, and every mapping in JSON is put together so; moreover, all its keys are texts. Of the reader of
YAML no more is asked than that its mappings hold no key twice. -/
namespace Solvency

namespace Members

variable {ms : Members} {key value : Document}

/-- No key is the same as a later one. -/
def Apart (ms : Members) : Prop := (ms.map (·.1)).Pairwise fun k k' => k.sameKey k' = false

def Textual (ms : Members) : Prop := ∀ m ∈ ms, ∃ t, m.1 = .text t

/-- A key that is present keeps its place and its spelling. -/
theorem keys_insert (ms : Members) (key value : Document) : (ms.insert key value).map (·.1) =
    if ms.any (·.1.sameKey key) then ms.map (·.1) else ms.map (·.1) ++ [key] := by
  induction ms with
  | nil => rfl
  | cons m rest ih =>
    obtain ⟨k, v⟩ := m
    cases same : k.sameKey key
    · simp only [insert, same, Bool.false_eq_true, if_false, List.map_cons, ih, List.any_cons,
        Bool.false_or]
      split <;> rfl
    · simp [insert, same]

theorem Apart.insert (apart : ms.Apart) (key value : Document) : (ms.insert key value).Apart := by
  rw [Apart, keys_insert]
  split
  · exact apart
  · rename_i absent
    rw [List.pairwise_append]
    refine ⟨apart, List.pairwise_singleton _ _, ?_⟩
    simpa using absent

theorem forall_insert {P Q : Document → Prop} (each : ∀ m ∈ ms, P m.1 ∧ Q m.2) (own : P key)
    (given : Q value) : ∀ m ∈ ms.insert key value, P m.1 ∧ Q m.2 := by
  induction ms with
  | nil => exact List.forall_mem_singleton.mpr ⟨own, given⟩
  | cons m rest ih =>
    obtain ⟨⟨first, kept⟩, others⟩ := List.forall_mem_cons.mp each
    unfold insert
    split
    · exact List.forall_mem_cons.mpr ⟨⟨first, given⟩, others⟩
    · exact List.forall_mem_cons.mpr ⟨⟨first, kept⟩, ih others⟩

theorem apart_ofPairs (pairs : List (Document × Document)) : (ofPairs pairs).Apart :=
  List.foldlRecOn pairs _ List.Pairwise.nil fun _ apart p _ => Apart.insert apart p.1 p.2

theorem forall_ofPairs {P Q : Document → Prop} {pairs : List (Document × Document)}
    (each : ∀ p ∈ pairs, P p.1 ∧ Q p.2) : ∀ m ∈ ofPairs pairs, P m.1 ∧ Q m.2 :=
  List.foldlRecOn (motive := fun ms : Members => ∀ m ∈ ms, P m.1 ∧ Q m.2) pairs _
    (List.forall_mem_nil _)
    fun _ kept p member => forall_insert kept (each p member).1 (each p member).2

/-- Texts that are apart as keys differ. -/
theorem Apart.nodup (apart : ms.Apart) (textual : ms.Textual) : (ms.map (·.1.plain)).Nodup := by
  have texts : ∀ m ∈ ms, ∀ m' ∈ ms, m.1.sameKey m'.1 = false → m.1.plain ≠ m'.1.plain := by
    intro m member m' member' apart
    obtain ⟨t, text⟩ := textual m member
    obtain ⟨t', text'⟩ := textual m' member'
    rw [text, text'] at apart ⊢
    simpa [Document.sameKey, Document.integral?, Document.plain] using apart
  rw [Apart, List.pairwise_map] at apart
  rw [List.Nodup, List.pairwise_map]
  exact apart.imp_of_mem fun member member' => texts _ member _ member'

end Members

namespace Document

/-- Neither a sequence nor a mapping. -/
def isSingle : Document → Bool
  | .list _ => false
  | .tuple _ => false
  | .mapping _ => false
  | _ => true

/-- A document of sequences and mappings, all its mappings of one kind. -/
inductive Composed (P : Members → Prop) : Document → Prop where
  | single {d : Document} : d.isSingle = true → Composed P d
  | list {xs : List Document} : (∀ x ∈ xs, Composed P x) → Composed P (.list xs)
  | tuple {xs : List Document} : (∀ x ∈ xs, Composed P x) → Composed P (.tuple xs)
  | mapping {ms : Members} : P ms → (∀ m ∈ ms, Composed P m.2) → Composed P (.mapping ms)

namespace Composed

variable {P Q : Members → Prop} {d : Document} {ms : Members}

theorem mono (imp : ∀ ms, P ms → Q ms) (composed : d.Composed P) : d.Composed Q := by
  induction composed with
  | single alone => exact .single alone
  | list _ ih => exact .list ih
  | tuple _ ih => exact .tuple ih
  | mapping own _ ih => exact .mapping (imp _ own) ih

theorem kind (composed : (Document.mapping ms).Composed P) : P ms := by
  cases composed with
  | single alone => cases alone
  | mapping own _ => exact own

theorem member (composed : (Document.mapping ms).Composed P) : ∀ m ∈ ms, m.2.Composed P := by
  cases composed with
  | single alone => cases alone
  | mapping _ values => exact values

/-- Mappings in a mapping are of its kind. -/
theorem optional (composed : (Document.mapping ms).Composed P) {key : String} {ms' : Members}
    (found : Datum.optional ms key .null = .mapping ms') : P ms' := by
  unfold Datum.optional at found
  cases held : ms.get? key with
  | none =>
    rw [held] at found
    cases found
  | some d =>
    rw [held] at found
    obtain rfl : d = .mapping ms' := found
    exact (composed.member _ (Members.mem_of_get? held)).kind

end Composed
end Document

open Document

/-- The results of a computation have a property. -/
abbrev Gives {α : Type} (Q : α → Prop) (x : Except Fault α) : Prop := Ends (fun _ => True) Q x

theorem gives_iff {α : Type} {Q : α → Prop} {x : Except Fault α} :
    Gives Q x ↔ ∀ a, x = .ok a → Q a := by
  cases x <;> simp [Ends]

theorem Gives.any {α : Type} (x : Except Fault α) : Gives (fun _ => True) x := by
  cases x <;> exact trivial

namespace Json

/-- A token that is a value of its own is a single one. -/
def Token.Single (t : Token) : Prop := ∀ d, t = .value d → d.isSingle = true

section Tokens

variable {cs : List Char} {found : Token × List Char}

theorem number?_single {negative : Bool} (read : number? negative cs = some found) :
    found.1.Single := by
  unfold number? at read
  split at read
  split at read
  · cases read
  · -- The fraction and the exponent are split off before it is known which number this is.
    split at read
    split at read
    split at read
    · cases read
      exact nofun
    · obtain ⟨x, _, made⟩ := Option.bind_eq_some_iff.mp read
      cases made
      rintro d ⟨⟩
      rfl

theorem word?_single (read : word? cs = some found) : found.1.Single := by
  obtain ⟨w, known, rfl⟩ := Option.map_eq_some_iff.mp read
  rintro d ⟨⟩
  have singles : ∀ w ∈ words, w.2.isSingle = true := by simp [words, isSingle]
  exact singles w (List.mem_of_find?_eq_some known)

theorem token?_single (read : token? cs = some found) : found.1.Single := by
  unfold token? at read
  split at read
  case h_7 =>
    obtain ⟨_, _, rfl⟩ := Option.map_eq_some_iff.mp read
    exact nofun
  case h_8 =>
    split at read
    · rename_i named
      exact word?_single (named.trans read)
    · exact number?_single read
    · exact number?_single read
  all_goals
    cases read
    exact nofun

theorem tokens_single (n : Nat) (cs : List Char) : ∀ t ∈ tokens n cs, t.Single := by
  induction n generalizing cs with
  | zero => exact List.forall_mem_nil _
  | succ n ih =>
    unfold tokens
    split
    · exact List.forall_mem_nil _
    · split
      · rename_i read
        exact List.forall_mem_cons.mpr ⟨token?_single read, ih _⟩
      · exact List.forall_mem_singleton.mpr nofun

end Tokens

/-- Keys are texts, and apart. -/
structure Keyed (ms : Members) : Prop where
  apart : ms.Apart
  textual : ms.Textual

/-- What is read has a property, and the tokens that are left are still those of a text. -/
def Reads {α : Type} (Q : α → Prop) (r : α × List Token) : Prop := Q r.1 ∧ ∀ t ∈ r.2, t.Single

theorem integer_single {negative : Bool} {digits : List Char} :
    Gives (fun d => d.isSingle = true) (integer negative digits) := by
  unfold integer
  split
  · trivial
  · rfl

theorem keyed_ofPairs {ms : Members}
    (each : ∀ m ∈ ms, (∃ t, m.1 = .text t) ∧ m.2.Composed Keyed) :
    (Document.mapping (Members.ofPairs ms)).Composed Keyed := by
  have kept := Members.forall_ofPairs (P := fun k => ∃ t, k = .text t) each
  exact .mapping ⟨Members.apart_ofPairs ms, fun m member => (kept m member).1⟩
    fun m member => (kept m member).2

mutual

theorem value_composed (n room : Nat) (ts : List Token) (scanned : ∀ t ∈ ts, t.Single) :
    Gives (Reads (Composed Keyed)) (value n room ts) := by
  match n, ts with
  | 0, _ | _ + 1, [] => exact trivial
  | n + 1, t :: rest =>
    obtain ⟨own, later⟩ := List.forall_mem_cons.mp scanned
    cases t with
    | text t => exact ⟨.single rfl, later⟩
    | integer negative digits =>
      refine integer_single.bind fun d single => ?_
      exact ⟨.single single, later⟩
    | value d => exact ⟨.single (own d rfl), later⟩
    | openList =>
      simp only [value]
      split
      · trivial
      · exact ⟨.list (List.forall_mem_nil _), (List.forall_mem_cons.mp later).2⟩
      · refine (items_composed n _ rest later).bind fun r read => ?_
        exact ⟨.list read.1, read.2⟩
    | openMapping =>
      simp only [value]
      split
      · trivial
      · exact ⟨keyed_ofPairs (List.forall_mem_nil _), (List.forall_mem_cons.mp later).2⟩
      · refine (members_composed n _ rest later).bind fun r read => ?_
        exact ⟨keyed_ofPairs read.1, read.2⟩
    | closeList | closeMapping | comma | colon | junk => exact trivial

theorem items_composed (n room : Nat) (ts : List Token) (scanned : ∀ t ∈ ts, t.Single) :
    Gives (Reads fun xs => ∀ x ∈ xs, Composed Keyed x) (items n room ts) := by
  match n with
  | 0 => exact trivial
  | n + 1 =>
    unfold items
    refine (value_composed n room ts scanned).bind fun (x, rest) ⟨first, later⟩ => ?_
    dsimp only
    split
    · refine (items_composed n room _ (List.forall_mem_cons.mp later).2).bind fun r read => ?_
      exact ⟨List.forall_mem_cons.mpr ⟨first, read.1⟩, read.2⟩
    · exact ⟨List.forall_mem_singleton.mpr first, (List.forall_mem_cons.mp later).2⟩
    · trivial

theorem members_composed (n room : Nat) (ts : List Token) (scanned : ∀ t ∈ ts, t.Single) :
    Gives (Reads fun ms => ∀ m ∈ ms, (∃ t, m.1 = .text t) ∧ Composed Keyed m.2)
      (members n room ts) := by
  unfold members
  split
  · rename_i n key rest
    simp only [List.forall_mem_cons] at scanned
    refine (value_composed n room rest scanned.2.2).bind fun (x, rest) ⟨first, later⟩ => ?_
    dsimp only
    split
    · refine (members_composed n room _ (List.forall_mem_cons.mp later).2).bind fun r read => ?_
      exact ⟨List.forall_mem_cons.mpr ⟨⟨⟨key, rfl⟩, first⟩, read.1⟩, read.2⟩
    · exact ⟨List.forall_mem_singleton.mpr ⟨⟨key, rfl⟩, first⟩, (List.forall_mem_cons.mp later).2⟩
    · trivial
  · trivial

end

theorem read_composed (room : Nat) (cs : List Char) : Gives (Composed Keyed) (read room cs) := by
  refine (value_composed _ room _ (tokens_single _ cs)).bind fun (d, rest) ⟨composed, _⟩ => ?_
  dsimp only
  split
  · exact composed
  · trivial

end Json

namespace Yaml

theorem scalar_single (cs : List Char) : Gives (fun d => d.isSingle = true) (scalar cs) := by
  unfold scalar
  split
  · rfl
  · split
    · rfl
    · split
      · rfl
      · split
        · exact (Gives.any _).bind fun _ _ => rfl
        · exact (Gives.any _).bind fun _ _ => rfl
        · split
          · trivial
          · rfl

namespace Node

theorem known_single {x : Except Fault Document} (gives : Gives (fun d => d.isSingle = true) x) :
    (known x).isSingle = true := by
  cases x with
  | ok d => exact gives
  | error _ => rfl

mutual

theorem value_composed (x : Node) : x.value.Composed Members.Apart := by
  match x with
  | .plain cs => exact .single (known_single (scalar_single cs))
  | .quoted t => exact .single rfl
  | .sequence xs => exact .list (itemValues_composed xs)
  | .mapping ms =>
    have kept := Members.forall_ofPairs (P := fun _ => True) (memberValues_composed ms)
    exact .mapping (Members.apart_ofPairs _) fun m member => (kept m member).2

theorem itemValues_composed (xs : List Node) : ∀ d ∈ itemValues xs, d.Composed Members.Apart := by
  match xs with
  | [] => exact List.forall_mem_nil _
  | x :: xs => exact List.forall_mem_cons.mpr ⟨value_composed x, itemValues_composed xs⟩

theorem memberValues_composed (ms : List (Node × Node)) :
    ∀ m ∈ memberValues ms, True ∧ m.2.Composed Members.Apart := by
  match ms with
  | [] => exact List.forall_mem_nil _
  | (.plain _, v) :: ms | (.quoted _, v) :: ms | (.sequence _, v) :: ms | (.mapping _, v) :: ms =>
    exact List.forall_mem_cons.mpr ⟨⟨trivial, value_composed v⟩, memberValues_composed ms⟩

end

end Node

theorem read_composed (cs : List Char) : Gives (Composed Members.Apart) (read cs) := by
  unfold read
  split
  · refine (Gives.any _).bind fun x _ => ?_
    unfold Node.document
    dsimp only
    split
    · trivial
    · exact Node.value_composed _
  · trivial

end Yaml

/-- No mapping in a document that the reader of YAML gives holds a key twice. -/
def Host.ReadsApart (host : Host) : Prop :=
  ∀ cs d, host.yaml cs = .ok d → d.Composed Members.Apart

theorem Host.readsApart_usual : usual.ReadsApart := fun cs => gives_iff.mp (Yaml.read_composed cs)

namespace Directory

variable {host : Host} {d : Directory} {p : Path} {ms : Members}

theorem members_composed {P : Members → Prop}
    (each : ∀ format, FileFormat.ofExtension? p.extension = some format →
      ∀ cs, Gives (Composed P) (format.read host cs))
    (opened : d.members host p = .ok ms) : (Document.mapping ms).Composed P := by
  have gives : Gives (fun ms => (Document.mapping ms).Composed P) (d.members host p) := by
    unfold members
    refine (Gives.any _).bind fun cs _ => ?_
    split
    · trivial
    · rename_i format named
      refine (each format named cs).bind fun document composed => ?_
      split
      · exact composed
      · trivial
  exact gives.result opened

/-- In a file that is read, no mapping holds a key twice. -/
theorem members_apart (reads : host.ReadsApart) (opened : d.members host p = .ok ms) :
    (Document.mapping ms).Composed Members.Apart := by
  refine members_composed (fun format _ cs => ?_) opened
  cases format with
  | yaml => exact gives_iff.mpr (reads cs)
  | json => exact (Json.read_composed _ cs).results fun _ => .mono fun _ => Json.Keyed.apart

theorem members_keyed (json : FileFormat.ofExtension? p.extension = some .json)
    (opened : d.members host p = .ok ms) : (Document.mapping ms).Composed Json.Keyed := by
  refine members_composed (fun format named cs => ?_) opened
  obtain rfl : FileFormat.json = format := Option.some.inj (json.symm.trans named)
  exact Json.read_composed _ cs

end Directory
end Solvency
