import Solvency.Document.Nesting
import Solvency.Fault

/-! The screen in front of every exact computation. It refuses what the canonical form cannot hold:
floats, texts with lone surrogates, and keys of mappings that are not texts. Members are screened
in order, each key before its value, and the first offender is named with its location. What is
nested deeper than there is room for ends the screening where it is met. -/
namespace Solvency.Document

mutual

/-- Goes through a value as its written form is made. An integer in it may have no numeral, and it may
be nested deeper than there is room for. -/
def spell : Nat → (d : Document) → Except Fault Unit
  | 0, _ => .error .nesting
  | room + 1, .list xs => spellItems room xs
  | room + 1, .tuple xs => spellItems room xs
  | room + 1, .mapping ms => spellMembers room ms
  | _ + 1, d =>
    if d.integers.all fun n => decide (Writable n) then .ok () else .error .digitLimit

def spellItems (room : Nat) : List Document → Except Fault Unit
  | [] => .ok ()
  | x :: xs => do
    spell room x
    spellItems room xs

def spellMembers (room : Nat) : List (Document × Document) → Except Fault Unit
  | [] => .ok ()
  | (k, v) :: ms => do
    spell room k
    spell room v
    spellMembers room ms

end

mutual

def screen : Nat → Location → (d : Document) → Except Fault Unit
  | 0, _, _ => .error .nesting
  | _ + 1, place, .float x => .error (.inexact place (.float x))
  | _ + 1, place, .text t => if t.hasHalf then .error (.inexact place .surrogate) else .ok ()
  | room + 1, place, .list xs => screenItems room place 0 xs
  | room + 1, place, .tuple xs => screenItems room place 0 xs
  | room + 1, place, .mapping ms => screenMembers room place ms
  | _ + 1, _, _ => .ok ()

def screenItems (room : Nat) (place : Location) (index : Nat) : List Document → Except Fault Unit
  | [] => .ok ()
  | x :: xs => do
    screen room (place.down (.item index)) x
    screenItems room place (index + 1) xs

/-- A key that is a text is screened as one; any other is written out in the refusal, with the call to
spare that every call of the screen has for what it asks about its value. -/
def screenMembers (room : Nat) (place : Location) :
    List (Document × Document) → Except Fault Unit
  | [] => .ok ()
  | (.text k, v) :: ms =>
    if room = 0 then .error .nesting
    else if k.hasHalf then .error (.inexact place .surrogate)
    else do
      screen room (place.down (.member k)) v
      screenMembers room place ms
  | (k, _) :: _ => do
    spell (room + 1) k
    .error (.inexact place (.key k))

end

end Solvency.Document
