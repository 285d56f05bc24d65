/-! Text as a sequence of code points. An escape in a document can spell half of a surrogate pair
on its own, which is no character, so a text may hold such halves beside characters. -/
namespace Solvency

/-- A character, or one of the 2048 surrogate halves from U+D800 on. -/
inductive CodePoint where
  | char (c : Char)
  | half (h : Fin 2048)
  deriving DecidableEq, Repr

namespace CodePoint

def number : CodePoint → Nat
  | .char c => c.toNat
  | .half h => 0xD800 + h.val

/-- The code point of a number below 0x110000. -/
def ofNumber? (n : Nat) : Option CodePoint :=
  if h : 0xD800 ≤ n ∧ n < 0xE000 then some (.half ⟨n - 0xD800, by omega⟩)
  else if n < 0x110000 then some (.char (Char.ofNat n))
  else none

def char? : CodePoint → Option Char
  | .char c => some c
  | .half _ => none

def isHalf : CodePoint → Bool
  | .char _ => false
  | .half _ => true

end CodePoint

abbrev Text := List CodePoint

namespace Text

def ofChars (cs : List Char) : Text := cs.map .char

def ofString (s : String) : Text := ofChars s.toList

instance : Coe String Text := ⟨ofString⟩

/-- The characters of a text without surrogate halves. -/
def chars? (t : Text) : Option (List Char) := t.mapM CodePoint.char?

def hasHalf (t : Text) : Bool := t.any CodePoint.isHalf

/-- Texts are ordered by their code points, first difference first. -/
def before (a b : Text) : Bool := decide (a.map CodePoint.number < b.map CodePoint.number)

/-- ASCII letters in lower case; every other code point as it is. -/
def lowerAscii (t : Text) : Text :=
  t.map fun
    | .char c => .char c.toLower
    | p => p

def joined (separator : Text) : List Text → Text
  | [] => []
  | [t] => t
  | t :: rest => t ++ separator ++ joined separator rest

@[simp] theorem chars?_ofChars (cs : List Char) : chars? (ofChars cs) = some cs := by
  induction cs with
  | nil => rfl
  | cons c cs ih =>
    simp only [chars?, ofChars, List.map_cons, List.mapM_cons] at ih ⊢
    simp [ih, CodePoint.char?]

@[simp] theorem hasHalf_ofChars (cs : List Char) : hasHalf (ofChars cs) = false := by
  induction cs with
  | nil => rfl
  | cons c cs _ => simp [hasHalf, ofChars, CodePoint.isHalf]

@[simp] theorem hasHalf_append (a b : Text) : hasHalf (a ++ b) = (hasHalf a || hasHalf b) :=
  List.any_append

end Text
end Solvency
