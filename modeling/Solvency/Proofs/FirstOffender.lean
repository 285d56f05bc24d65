import Mathlib.Data.List.Basic
import Solvency.Proofs.Screening

/-! What the screen names. The nodes of a document are its values and keys, each at the place that steps
lead to from the root. In document order a node comes before what is in it, and a key, which stands
where its mapping does, before its value. The screen refuses a document exactly if one of its nodes
offends or it is deeper than there is room for, and names the first node that offends, with its place,
as far as the offender can be written and no room is missing before it. -/
namespace Solvency

/-- Further down from a place. -/
def Location.along (l : Location) (path : List Step) : Location := { l with steps := l.steps ++ path }

theorem Location.along_nil (l : Location) : l.along [] = l := by simp [along]

theorem Location.along_down (l : Location) (s : Step) (path : List Step) :
    (l.down s).along path = l.along (s :: path) := by simp [along, down]

theorem Location.text_along (l : Location) (path : List Step) :
    (l.along path).text = l.text ++ path.flatMap Step.text := by simp [along, text]

namespace Document

/-- What stands at one place of a document: a value, or a key of the mapping that stands there. -/
inductive Node where
  | value (d : Document)
  | key (k : Document)

/-- What keeps a node, by itself, out of the canonical form. -/
def Node.offence? : Node → Option Inexact
  | .value (.float x) => some (.float x)
  | .value (.text t) => if t.hasHalf then some .surrogate else none
  | .value _ => none
  | .key (.text _) => none
  | .key k => some (.key k)

structure Placed where
  path : List Step := []
  node : Node

def Placed.under (s : Step) (n : Placed) : Placed := { n with path := s :: n.path }

mutual

/-- All nodes of a document in its order. -/
def nodes : Document → List Placed
  | .list xs => { node := .value (.list xs) } :: itemNodes 0 xs
  | .tuple xs => { node := .value (.tuple xs) } :: itemNodes 0 xs
  | .mapping ms => { node := .value (.mapping ms) } :: memberNodes ms
  | d => [{ node := .value d }]

def itemNodes (index : Nat) : List Document → List Placed
  | [] => []
  | x :: xs => (nodes x).map (Placed.under (.item index)) ++ itemNodes (index + 1) xs

/-- Keys, and what is in them, stand where their mapping does. -/
def memberNodes : List (Document × Document) → List Placed
  | [] => []
  | (k, v) :: ms =>
    { node := .key k } :: nodes k ++ (nodes v).map (Placed.under (.member k.plain)) ++ memberNodes ms

end

/-- The steps lead from a document to a node in it. -/
inductive Leads : Document → List Step → Node → Prop where
  | here (d : Document) : Leads d [] (.value d)
  | listItem {xs : List Document} {i : Nat} {x : Document} {path : List Step} {n : Node} :
    xs[i]? = some x → Leads x path n → Leads (.list xs) (.item i :: path) n
  | tupleItem {xs : List Document} {i : Nat} {x : Document} {path : List Step} {n : Node} :
    xs[i]? = some x → Leads x path n → Leads (.tuple xs) (.item i :: path) n
  | key {ms : Members} {k v : Document} : (k, v) ∈ ms → Leads (.mapping ms) [] (.key k)
  | inKey {ms : Members} {k v : Document} {path : List Step} {n : Node} :
    (k, v) ∈ ms → Leads k path n → Leads (.mapping ms) path n
  | member {ms : Members} {k v : Document} {path : List Step} {n : Node} :
    (k, v) ∈ ms → Leads v path n → Leads (.mapping ms) (.member k.plain :: path) n

/-- What the screen answers to an offence. A key is written out, and may hold an integer that has no
numeral. -/
def refusal (location : Location) : Inexact → Fault
  | .key k => if ∀ n ∈ k.integers, Writable n then .inexact location (.key k) else .digitLimit
  | what => .inexact location what

/-- The fault of a node, seen from a place. -/
def Placed.fault? (place : Location) (n : Placed) : Option Fault :=
  n.node.offence?.map (refusal (place.along n.path))

theorem Placed.fault?_under (place : Location) (s : Step) (n : Placed) :
    (n.under s).fault? place = n.fault? (place.down s) := by
  rw [fault?, fault?, Location.along_down]
  rfl

/-- Passes unless there is a fault. -/
def passUnless : Option Fault → Except Fault Unit
  | none => .ok ()
  | some f => .error f

theorem passUnless_eq_ok {a : Option Fault} : passUnless a = .ok () ↔ a = none := by
  cases a <;> simp [passUnless]

theorem passUnless_eq_error {a : Option Fault} {f : Fault} :
    passUnless a = .error f ↔ a = some f := by
  cases a <;> simp [passUnless]

theorem passUnless_or (a b : Option Fault) :
    passUnless (a.or b) = passUnless a >>= fun _ => passUnless b := by
  cases a <;> rfl

/-- A walk ends as it is due, or for want of room. -/
def EndsBy (due : Except Fault Unit) (needs room : Nat) (run : Except Fault Unit) : Prop :=
  run = due ∨ run = .error .nesting ∧ room < needs

section Walk

variable {room needs needs' : Nat} {due due' run run' : Except Fault Unit}

theorem EndsBy.here : EndsBy due needs room due := .inl rfl

theorem EndsBy.deeper (ends : EndsBy due needs room run) (more : needs ≤ needs') :
    EndsBy due needs' room run :=
  ends.imp_right fun ⟨short, lack⟩ => ⟨short, Nat.lt_of_lt_of_le lack more⟩

theorem EndsBy.within (ends : EndsBy due needs room run) : EndsBy due (needs + 1) (room + 1) run :=
  ends.imp_right fun ⟨short, lack⟩ => ⟨short, Nat.succ_lt_succ lack⟩

/-- Two walks one after the other. -/
theorem EndsBy.seq (first : EndsBy due needs room run) (rest : EndsBy due' needs' room run') :
    EndsBy (due >>= fun _ => due') (max needs needs') room (run >>= fun _ => run') := by
  obtain rfl | ⟨rfl, lack⟩ := first
  · cases run with
    | error f => exact .here
    | ok _ => exact rest.deeper (Nat.le_max_right _ _)
  · exact .inr ⟨rfl, Nat.lt_of_lt_of_le lack (Nat.le_max_left _ _)⟩

/-- A walk after a step that needs no room. -/
theorem EndsBy.after (step : Except Fault Unit) (rest : EndsBy due needs room run) :
    EndsBy (step >>= fun _ => due) needs room (step >>= fun _ => run) := by
  cases step with
  | error f => exact .here
  | ok _ => exact rest

/-- With room enough a walk ends as it is due. -/
theorem EndsBy.eq (ends : EndsBy due needs room run) (fits : needs ≤ room) : run = due :=
  ends.resolve_right fun ⟨_, lack⟩ => Nat.not_lt.mpr fits lack

end Walk

/-- What writing a value out comes to, with room enough. -/
def spelling (integers : List Int) : Except Fault Unit :=
  if ∀ n ∈ integers, Writable n then .ok () else .error .digitLimit

theorem spelling_append (ms ns : List Int) :
    spelling (ms ++ ns) = spelling ms >>= fun _ => spelling ns := by
  unfold spelling
  by_cases first : ∀ n ∈ ms, Writable n
  · have both : (∀ n ∈ ms ++ ns, Writable n) ↔ ∀ n ∈ ns, Writable n := by
      rw [List.forall_mem_append, and_iff_right first]
    simp only [if_pos first, both]
    rfl
  · have neither : ¬ ∀ n ∈ ms ++ ns, Writable n := fun all => first (List.forall_mem_append.mp all).1
    rw [if_neg first, if_neg neither]
    rfl

mutual

theorem spell_ends (k : Document) (room : Nat) :
    EndsBy (spelling k.integers) (k.nesting 1) room (k.spell room) := by
  match room, k with
  | 0, k => exact .inr ⟨by rw [spell], one_le_nesting k⟩
  | room + 1, .list xs => exact (spellItems_ends xs room).within
  | room + 1, .tuple xs => exact (spellItems_ends xs room).within
  | room + 1, .mapping ms =>
    rw [nesting_mapping]
    exact (spellMembers_ends ms room).within
  | room + 1, .null | room + 1, .bool _ | room + 1, .integer _ | room + 1, .float _
  | room + 1, .text _ | room + 1, .bytes _ | room + 1, .moment _ | room + 1, .set _ =>
    exact .inl (by simp [spell, spelling])

theorem spellItems_ends (xs : List Document) (room : Nat) :
    EndsBy (spelling (integersIn xs)) (itemNesting 1 xs) room (spellItems room xs) := by
  match xs with
  | [] => exact .here
  | x :: xs =>
    rw [integersIn, spelling_append]
    exact (spell_ends x room).seq (spellItems_ends xs room)

theorem spellMembers_ends (ms : List (Document × Document)) (room : Nat) :
    EndsBy (spelling (memberIntegers ms)) (memberNesting 1 ms) room (spellMembers room ms) := by
  match ms with
  | [] => exact .here
  | (k, v) :: ms =>
    rw [memberIntegers, spelling_append, spelling_append, memberNesting, spellMembers]
    have pair := (spell_ends k room).seq (spell_ends v room)
    rw [bind_assoc]
    simpa only [bind_assoc] using pair.seq (spellMembers_ends ms room)

end

/-- A key that is no text ends the screening, as soon as it is written out. -/
theorem screenMembers_key_ends {k : Document} (other : ∀ t, k ≠ .text t) (room : Nat)
    (place : Location) (v : Document) (ms : List (Document × Document)) :
    EndsBy (passUnless ((memberNodes ((k, v) :: ms)).findSome? (Placed.fault? place)))
      (memberNesting 1 ((k, v) :: ms)) room (screenMembers room place ((k, v) :: ms)) := by
  have offends : (Node.key k).offence? = some (.key k) := by
    cases k with
    | text t => exact absurd rfl (other t)
    | _ => rfl
  have due : passUnless ((memberNodes ((k, v) :: ms)).findSome? (Placed.fault? place)) =
      (spelling k.integers >>= fun _ => .error (.inexact place (.key k))) := by
    simp only [memberNodes, List.cons_append, List.findSome?_cons, Placed.fault?, offends,
      Option.map_some, passUnless, Location.along_nil, refusal, spelling]
    split <;> rfl
  have run : screenMembers room place ((k, v) :: ms) =
      (k.spell (room + 1) >>= fun _ => .error (.inexact place (.key k))) := by
    cases k with
    | text t => exact absurd rfl (other t)
    | _ => rfl
  have needs : k.nesting 1 ≤ memberNesting 1 ((k, v) :: ms) :=
    Nat.le_trans (Nat.le_max_left _ _) (Nat.le_max_left _ _)
  rw [due, run]
  obtain spelled | ⟨short, lack⟩ := spell_ends k (room + 1)
  · exact .inl (by rw [spelled])
  · exact .inr ⟨by rw [short]; rfl, by omega⟩

mutual

/-- The screen ends with the first offence, unless it has no room to get there. -/
theorem screen_ends (d : Document) (room : Nat) (place : Location) :
    EndsBy (passUnless (d.nodes.findSome? (Placed.fault? place))) (d.nesting 1) room
      (d.screen room place) := by
  match room, d with
  | 0, d => exact .inr ⟨by rw [screen], one_le_nesting d⟩
  | room + 1, .null | room + 1, .bool _ | room + 1, .integer _ | room + 1, .bytes _
  | room + 1, .moment _ | room + 1, .set _ => exact .here
  | room + 1, .float x =>
    exact .inl (by
      simp [screen, nodes, Placed.fault?, Node.offence?, passUnless, refusal, Location.along_nil])
  | room + 1, .text t =>
    cases half : t.hasHalf <;>
      exact .inl (by
        simp [screen, nodes, Placed.fault?, Node.offence?, passUnless, refusal, Location.along_nil,
          half])
  | room + 1, .list xs => exact (screenItems_ends xs room place 0).within
  | room + 1, .tuple xs => exact (screenItems_ends xs room place 0).within
  | room + 1, .mapping ms =>
    rw [nesting_mapping]
    exact (screenMembers_ends ms room place).within

theorem screenItems_ends (xs : List Document) (room : Nat) (place : Location) (index : Nat) :
    EndsBy (passUnless ((itemNodes index xs).findSome? (Placed.fault? place))) (itemNesting 1 xs)
      room (screenItems room place index xs) := by
  match xs with
  | [] => exact .here
  | x :: xs =>
    have first := screen_ends x room (place.down (.item index))
    rw [screenItems, itemNodes, List.findSome?_append, passUnless_or, List.findSome?_map]
    simp only [Function.comp_def, Placed.fault?_under]
    exact first.seq (screenItems_ends xs room place (index + 1))

theorem screenMembers_ends (ms : List (Document × Document)) (room : Nat) (place : Location) :
    EndsBy (passUnless ((memberNodes ms).findSome? (Placed.fault? place))) (memberNesting 1 ms)
      room (screenMembers room place ms) := by
  match ms with
  | [] => exact .here
  | (.text k, v) :: ms =>
    have value := screen_ends v room (place.down (.member k))
    have rest := screenMembers_ends ms room place
    obtain rfl | room_pos := Nat.eq_zero_or_pos room
    · have key : 1 ≤ memberNesting 1 ((.text k, v) :: ms) :=
        Nat.le_trans (Nat.le_max_left _ _) (Nat.le_max_left _ _)
      exact .inr ⟨by rw [screenMembers, if_pos rfl], key⟩
    · have members : screenMembers room place ((.text k, v) :: ms) =
          (if k.hasHalf then .error (.inexact place .surrogate) else .ok ()) >>= fun _ =>
            screen room (place.down (.member k)) v >>= fun _ => screenMembers room place ms := by
        rw [screenMembers, if_neg (Nat.ne_of_gt room_pos)]
        split <;> rfl
      have key : passUnless (({ node := .key (.text k) } :: nodes (.text k)).findSome?
          (Placed.fault? place)) =
          (if k.hasHalf then .error (.inexact place .surrogate) else .ok ()) := by
        cases half : k.hasHalf <;>
          simp [nodes, Placed.fault?, Node.offence?, passUnless, refusal, Location.along_nil, half]
      have due : passUnless ((memberNodes ((.text k, v) :: ms)).findSome? (Placed.fault? place)) =
          (if k.hasHalf then .error (.inexact place .surrogate) else .ok ()) >>= fun _ =>
            passUnless (v.nodes.findSome? (Placed.fault? (place.down (.member k)))) >>= fun _ =>
              passUnless ((memberNodes ms).findSome? (Placed.fault? place)) := by
        rw [memberNodes, List.findSome?_append, List.findSome?_append, passUnless_or, passUnless_or,
          key, List.findSome?_map, bind_assoc]
        simp only [Function.comp_def, Placed.fault?_under]
        rfl
      rw [members, due]
      refine ((value.seq rest).after _).deeper ?_
      rw [memberNesting, Nat.max_assoc]
      exact Nat.le_max_right _ _
  | (.null, v) :: ms | (.bool _, v) :: ms | (.integer _, v) :: ms | (.float _, v) :: ms
  | (.bytes _, v) :: ms | (.moment _, v) :: ms | (.list _, v) :: ms | (.tuple _, v) :: ms
  | (.set _, v) :: ms | (.mapping _, v) :: ms =>
    exact screenMembers_key_ends (by simp) room place v ms

end

section Addresses

theorem itemNodes_eq (xs : List Document) (index : Nat) : itemNodes index xs =
    (xs.zipIdx index).flatMap fun p => (nodes p.1).map (Placed.under (.item p.2)) := by
  induction xs generalizing index with
  | nil => rfl
  | cons x rest ih => rw [itemNodes, ih, List.zipIdx_cons, List.flatMap_cons]

theorem memberNodes_eq (ms : Members) : memberNodes ms = ms.flatMap fun m =>
    { node := .key m.1 } :: nodes m.1 ++ (nodes m.2).map (Placed.under (.member m.1.plain)) := by
  induction ms with
  | nil => rfl
  | cons m rest ih => rw [memberNodes, ih, List.flatMap_cons]

theorem mem_itemNodes {xs : List Document} {p : Placed} : p ∈ itemNodes 0 xs ↔
    ∃ i x, xs[i]? = some x ∧ ∃ q ∈ nodes x, q.under (.item i) = p := by
  simp only [itemNodes_eq, List.mem_flatMap, List.mem_map, List.mem_zipIdx_iff_getElem?]
  exact ⟨fun ⟨(x, i), item, inside⟩ => ⟨i, x, item, inside⟩,
    fun ⟨i, x, item, inside⟩ => ⟨(x, i), item, inside⟩⟩

theorem mem_memberNodes {ms : Members} {p : Placed} : p ∈ memberNodes ms ↔
    ∃ k v, (k, v) ∈ ms ∧ (p = { node := .key k } ∨ p ∈ nodes k ∨
      ∃ q ∈ nodes v, q.under (.member k.plain) = p) := by
  simp only [memberNodes_eq, List.mem_flatMap, List.mem_cons, List.mem_append, List.mem_map,
    List.cons_append, Prod.exists]

/-- By the size of the document: what is inside an item or a member is in a smaller one. -/
theorem leads_of_mem (d : Document) (p : Placed) (inside : p ∈ d.nodes) : Leads d p.path p.node := by
  match d with
  | .null | .bool _ | .integer _ | .float _ | .text _ | .bytes _ | .moment _ | .set _ =>
    cases List.mem_singleton.mp inside
    exact .here _
  | .list xs =>
    obtain rfl | inside := List.mem_cons.mp inside
    · exact .here _
    · obtain ⟨i, x, item, q, within, rfl⟩ := mem_itemNodes.mp inside
      have := List.sizeOf_lt_of_mem (List.mem_of_getElem? item)
      exact .listItem item (leads_of_mem x q within)
  | .tuple xs =>
    obtain rfl | inside := List.mem_cons.mp inside
    · exact .here _
    · obtain ⟨i, x, item, q, within, rfl⟩ := mem_itemNodes.mp inside
      have := List.sizeOf_lt_of_mem (List.mem_of_getElem? item)
      exact .tupleItem item (leads_of_mem x q within)
  | .mapping ms =>
    obtain rfl | inside := List.mem_cons.mp inside
    · exact .here _
    · obtain ⟨k, v, member, rfl | within | ⟨q, within, rfl⟩⟩ := mem_memberNodes.mp inside
      · exact .key member
      · have := List.sizeOf_lt_of_mem member
        exact .inKey member (leads_of_mem k p within)
      · have := List.sizeOf_lt_of_mem member
        exact .member member (leads_of_mem v q within)
  termination_by sizeOf d
  decreasing_by all_goals simp_all; omega

theorem mem_nodes_of_leads {d : Document} {path : List Step} {n : Node} (leads : Leads d path n) :
    { path, node := n } ∈ d.nodes := by
  induction leads with
  | here d => cases d <;> simp [nodes]
  | listItem item _ inside | tupleItem item _ inside =>
    exact List.mem_cons_of_mem _ (mem_itemNodes.mpr ⟨_, _, item, _, inside, rfl⟩)
  | key member => exact List.mem_cons_of_mem _ (mem_memberNodes.mpr ⟨_, _, member, .inl rfl⟩)
  | inKey member _ inside =>
    exact List.mem_cons_of_mem _ (mem_memberNodes.mpr ⟨_, _, member, .inr (.inl inside)⟩)
  | member member _ inside =>
    exact List.mem_cons_of_mem _ (mem_memberNodes.mpr ⟨_, _, member, .inr (.inr ⟨_, inside, rfl⟩)⟩)

/-- The nodes of a document are what the steps lead to. -/
theorem mem_nodes_iff {d : Document} {path : List Step} {n : Node} :
    { path, node := n } ∈ d.nodes ↔ Leads d path n :=
  ⟨leads_of_mem d _, mem_nodes_of_leads⟩

end Addresses

/-- The first node that offends, in the order of the document. -/
def FirstOffence (d : Document) (path : List Step) (what : Inexact) : Prop :=
  ∃ before n after, d.nodes = before ++ { path, node := n } :: after ∧
    (∀ m ∈ before, m.node.offence? = none) ∧ n.offence? = some what

theorem findSome?_nodes {d : Document} {place : Location} {f : Fault} :
    d.nodes.findSome? (Placed.fault? place) = some f ↔
      ∃ path what, FirstOffence d path what ∧ f = refusal (place.along path) what := by
  rw [List.findSome?_eq_some_iff]
  constructor
  · rintro ⟨before, ⟨path, n⟩, after, split, found, clean⟩
    obtain ⟨what, offends, rfl⟩ := Option.map_eq_some_iff.mp found
    exact ⟨path, what, ⟨before, n, after, split,
      fun m earlier => Option.map_eq_none_iff.mp (clean m earlier), offends⟩, rfl⟩
  · rintro ⟨path, what, ⟨before, n, after, split, clean, offends⟩, rfl⟩
    exact ⟨before, ⟨path, n⟩, after, split, by simp [Placed.fault?, offends],
      fun m earlier => Option.map_eq_none_iff.mpr (clean m earlier)⟩

theorem findSome?_nodes_eq_none {d : Document} {place : Location} :
    d.nodes.findSome? (Placed.fault? place) = none ↔
      ∀ path n, Leads d path n → n.offence? = none := by
  rw [List.findSome?_eq_none_iff]
  constructor
  · intro clean path n leads
    exact Option.map_eq_none_iff.mp (clean _ (mem_nodes_iff.mpr leads))
  · intro clean p inside
    exact Option.map_eq_none_iff.mpr (clean p.path p.node (mem_nodes_iff.mp inside))

section Answers

variable {d : Document} {room : Nat} {place : Location} {f : Fault}

/-- With room enough the screen fails exactly with the first offence. -/
theorem screen_eq_error (fits : d.nesting 1 ≤ room) : d.screen room place = .error f ↔
    ∃ path what, FirstOffence d path what ∧ f = refusal (place.along path) what := by
  rw [(screen_ends d room place).eq fits, passUnless_eq_error, findSome?_nodes]

theorem screen_error (refused : d.screen room place = .error f) :
    (∃ path what, FirstOffence d path what ∧ f = refusal (place.along path) what) ∨
      f = .nesting ∧ room < d.nesting 1 := by
  obtain due | ⟨short, lack⟩ := screen_ends d room place
  · exact .inl (findSome?_nodes.mp (passUnless_eq_error.mp (due.symm.trans refused)))
  · exact .inr ⟨Except.error.inj (refused.symm.trans short), lack⟩

theorem screen_eq_ok_iff_leads : d.screen room place = .ok () ↔
    (∀ path n, Leads d path n → n.offence? = none) ∧ d.nesting 1 ≤ room := by
  rw [← findSome?_nodes_eq_none, ← passUnless_eq_ok]
  constructor
  · intro passed
    have fits := ((screen_eq_ok d room place).mp passed).2
    exact ⟨(screen_ends d room place).eq fits ▸ passed, fits⟩
  · rintro ⟨clean, fits⟩
    exact (screen_ends d room place).eq fits ▸ clean

/-- For want of room is all that a document without offences fails. -/
theorem screen_of_admissible (admissible : d.admissible = true) :
    Ends (· = .nesting) (fun _ => True) (d.screen room place) := by
  have passed := (screen_eq_ok d _ place).mpr ⟨admissible, Nat.le_refl _⟩
  have clean := (screen_ends d _ place).eq (Nat.le_refl _) ▸ passed
  obtain due | ⟨short, _⟩ := screen_ends d room place
  · rw [due, clean]
    trivial
  · rw [short]
    rfl

end Answers

/-- The screen passes a document exactly if no node of it offends and it is no deeper than there is room
for. It names the first node that offends, and the place that the message gives is the way to that
node: the refusal is about the numeral only where the offender is a key whose written form holds an
integer that has none, and about room only where the document is too deep. -/
theorem screen_names_first (d : Document) (room : Nat) (place : Location) :
    (d.screen room place = .ok () ↔
      (∀ path n, Leads d path n → n.offence? = none) ∧ d.nesting 1 ≤ room) ∧
    (∀ f, d.screen room place = .error f →
      (∃ path what, FirstOffence d path what ∧ f = refusal (place.along path) what) ∨
        f = .nesting ∧ room < d.nesting 1) ∧
    (d.nesting 1 ≤ room → ∀ f, d.screen room place = .error f ↔
      ∃ path what, FirstOffence d path what ∧ f = refusal (place.along path) what) ∧
    (∀ path n, { path, node := n } ∈ d.nodes ↔ Leads d path n) ∧
    ∀ path what, (Fault.inexact (place.along path) what).message =
      place.text ++ path.flatMap Step.text ++ ": " ++ what.message := by
  refine ⟨screen_eq_ok_iff_leads, fun f => screen_error, fun fits f => screen_eq_error fits,
    fun path n => mem_nodes_iff, ?_⟩
  intro path what
  rw [Fault.message, Location.text_along]

example (x : Binary64) :
    screen 8 {} (.record [
      ("oracles", .list [.record [("price", (1 : Int))], .record [("price", .float x)]]),
      ("fees", .float x)]) =
    .error (.inexact { steps := [.member "oracles", .item 1, .member "price"] } (.float x)) := by
  cbv

/-- A node that offends does not always have its offence and place told: a key may be an integer
without a numeral. -/
theorem not_screen_tells :
    ¬ ∀ (d : Document) (room : Nat) (place : Location), d.nesting 1 ≤ room →
      (∃ path n, Leads d path n ∧ n.offence? ≠ none) →
      ∃ location what, d.screen room place = .error (.inexact location what) := by
  intro tells
  have key : Leads (.mapping [(.integer (tenTo digitLimit), .null)]) []
    (.key (.integer (tenTo digitLimit))) := .key List.mem_cons_self
  have fits (n : Int) : nesting 1 (.mapping [(.integer n, .null)]) ≤ 8 := by
    rw [nesting_mapping]
    simp [memberNesting]
  obtain ⟨location, what, named⟩ := tells _ 8 {} (fits _) ⟨_, _, key, Option.some_ne_none _⟩
  have long : ¬ ∀ n ∈ (Document.integer (tenTo digitLimit)).integers, Writable n := by
    intro writable
    have short := writable _ List.mem_cons_self
    rw [Writable, Int.natAbs_natCast] at short
    exact Nat.lt_irrefl _ short
  have refused : screen 8 {} (.mapping [(.integer (tenTo digitLimit), .null)]) =
      .error .digitLimit := by
    refine (screen_eq_error (fits _)).mpr ⟨[], _, ⟨[{ node := .value _ }], _, _, rfl, ?_, rfl⟩, ?_⟩
    · exact List.forall_mem_singleton.mpr rfl
    · rw [refusal, if_neg long]
  rw [refused] at named
  cases named

end Document
end Solvency
