import Solvency.Fault
import Solvency.Json.Token

/-! JSON texts as documents. Of members with one key the first gives the place and the last the
value. The first fault of a text is reported, whether it is an integer that is too long or a token
out of place, or a collection inside too many others. -/
namespace Solvency.Json

def malformed : Fault := .file .malformedJson

def integer (negative : Bool) (digits : List Char) : Except Fault Document :=
  if digitLimit < digits.length then .error .digitLimit
  else
    let n : Int := Nat.ofDigitChars 10 digits 0
    .ok (.integer (if negative then -n else n))

mutual

/-- The value that tokens start with, with room for a number of collections inside one another. -/
def value : Nat → Nat → List Token → Except Fault (Document × List Token)
  | n + 1, room, t :: rest =>
    match t with
    | .text t => .ok (.text t, rest)
    | .integer negative digits => do
      let d ← integer negative digits
      pure (d, rest)
    | .value d => .ok (d, rest)
    | .openList =>
      match room, rest with
      | 0, _ => .error .nesting
      | _, .closeList :: rest => .ok (.list [], rest)
      | room + 1, rest => do
        let (xs, rest) ← items n room rest
        pure (.list xs, rest)
    | .openMapping =>
      match room, rest with
      | 0, _ => .error .nesting
      | _, .closeMapping :: rest => .ok (.mapping [], rest)
      | room + 1, rest => do
        let (ms, rest) ← members n room rest
        pure (.mapping (Members.ofPairs ms), rest)
    | _ => .error malformed
  | _, _, _ => .error malformed

/-- The items of a list that has some, up to its end. -/
def items : Nat → Nat → List Token → Except Fault (List Document × List Token)
  | 0, _, _ => .error malformed
  | n + 1, room, ts => do
    let (x, rest) ← value n room ts
    match rest with
    | .comma :: rest => do
      let (xs, rest) ← items n room rest
      pure (x :: xs, rest)
    | .closeList :: rest => pure ([x], rest)
    | _ => .error malformed

/-- The members of a mapping that has some, up to its end. -/
def members : Nat → Nat → List Token → Except Fault (Members × List Token)
  | n + 1, room, .text key :: .colon :: rest => do
    let (x, rest) ← value n room rest
    match rest with
    | .comma :: rest => do
      let (ms, rest) ← members n room rest
      pure ((.text key, x) :: ms, rest)
    | .closeMapping :: rest => pure ([(.text key, x)], rest)
    | _ => .error malformed
  | _, _, _ => .error malformed

end

/-- The document that a whole text holds, with room for a number of collections inside one another. A
byte order mark is no part of any. -/
def read (room : Nat) (cs : List Char) : Except Fault Document := do
  let ts := tokens (cs.length + 1) cs
  let (d, rest) ← value (2 * ts.length + 1) room ts
  if rest.isEmpty then pure d else .error malformed

end Solvency.Json
