import Solvency.Yaml.Token

/-! The nodes that tokens build. One token of look-ahead decides everything, so the first token out
of place is the one reported, with its own fault if it carries one. -/
namespace Solvency.Yaml

inductive Node where
  | plain (cs : List Char)
  | quoted (t : Text)
  | sequence (xs : List Node)
  | mapping (ms : List (Node × Node))

/-- Where a node stands. The value of a mapping may also be a sequence whose entries are not
indented, which has no token of its own to start it. -/
inductive Place where
  | block
  | blockValue
  | flow
  deriving DecidableEq

namespace Node

/-- A node that is left out. -/
def absent : Node := .plain []

/-- What is wrong where no token fits. -/
def unexpected : List Token → Fault
  | .fault f :: _ => f
  | _ => malformed

/-- The token shows that an entry of a block sequence is left out. -/
def endsEntry : Token → Bool
  | .entry | .blockEnd => true
  | _ => false

/-- The token shows that a key or a value of a block mapping is left out. -/
def endsMember : Token → Bool
  | .key | .value | .blockEnd => true
  | _ => false

/-- The token shows that a key in a flow collection is left out. -/
def endsFlowKey : Token → Bool
  | .value | .comma | .flowSequenceEnd | .flowMappingEnd => true
  | _ => false

/-- The token shows that a value in a flow collection is left out. -/
def endsFlowValue : Token → Bool
  | .comma | .flowSequenceEnd | .flowMappingEnd => true
  | _ => false

mutual

/-- The node that tokens start with. -/
def ofTokens : Nat → Place → List Token → Except Fault (Node × List Token)
  | n + 1, place, t :: rest =>
    match t with
    | .plain cs => .ok (.plain cs, rest)
    | .quoted t => .ok (.quoted t, rest)
    | .flowSequence => do
      let (xs, rest) ← flowItems n true rest
      pure (.sequence xs, rest)
    | .flowMapping => do
      let (ms, rest) ← flowMembers n true rest
      pure (.mapping ms, rest)
    | .blockSequence =>
      if place = .flow then .error malformed
      else do
        let (xs, rest) ← entries n rest
        pure (.sequence xs, rest)
    | .blockMapping =>
      if place = .flow then .error malformed
      else do
        let (ms, rest) ← members n rest
        pure (.mapping ms, rest)
    | .entry =>
      if place = .blockValue then do
        let (xs, rest) ← openEntries n (t :: rest)
        pure (.sequence xs, rest)
      else .error malformed
    | t => .error (unexpected [t])
  | _, _, _ => .error malformed

/-- A node, unless the next token shows that it is left out. -/
def unlessEnded : Nat → (Token → Bool) → Place → List Token → Except Fault (Node × List Token)
  | n + 1, ended, place, ts =>
    if ts.head?.any ended then .ok (absent, ts) else ofTokens n place ts
  | 0, _, _, _ => .error malformed

/-- The entries of a block sequence. -/
def entries : Nat → List Token → Except Fault (List Node × List Token)
  | n + 1, .entry :: rest => do
    let (x, rest) ← unlessEnded n endsEntry .block rest
    let (xs, rest) ← entries n rest
    pure (x :: xs, rest)
  | _, .blockEnd :: rest => .ok ([], rest)
  | _, ts => .error (unexpected ts)

/-- The entries of a sequence that is not indented; whatever is no entry ends it. -/
def openEntries : Nat → List Token → Except Fault (List Node × List Token)
  | n + 1, .entry :: rest => do
    let (x, rest) ← unlessEnded n (fun t => endsEntry t || endsMember t) .block rest
    let (xs, rest) ← openEntries n rest
    pure (x :: xs, rest)
  | _, ts => .ok ([], ts)

/-- The members of a block mapping; either half of one may be left out. -/
def members : Nat → List Token → Except Fault (List (Node × Node) × List Token)
  | n + 1, .key :: rest => do
    let (k, rest) ← unlessEnded n endsMember .blockValue rest
    let (v, rest) ← memberValue n rest
    let (ms, rest) ← members n rest
    pure ((k, v) :: ms, rest)
  | _, .blockEnd :: rest => .ok ([], rest)
  | _, ts => .error (unexpected ts)

def memberValue : Nat → List Token → Except Fault (Node × List Token)
  | n + 1, .value :: rest => unlessEnded n endsMember .blockValue rest
  | _, ts => .ok (absent, ts)

/-- The items of a flow sequence, the first of which no comma precedes. An item with a key is a
mapping of one member. -/
def flowItems : Nat → Bool → List Token → Except Fault (List Node × List Token)
  | _, _, .flowSequenceEnd :: rest => .ok ([], rest)
  | n + 1, true, .key :: rest => do
    let (k, rest) ← unlessEnded n endsFlowKey .flow rest
    let (v, rest) ← flowValue n rest
    let (xs, rest) ← flowItems n false rest
    pure (.mapping [(k, v)] :: xs, rest)
  | n + 1, true, ts => do
    let (x, rest) ← ofTokens n .flow ts
    let (xs, rest) ← flowItems n false rest
    pure (x :: xs, rest)
  | n + 1, false, .comma :: rest => flowItems n true rest
  | _, _, ts => .error (unexpected ts)

/-- The members of a flow mapping, the first of which no comma precedes. One without a key mark is a
key alone. -/
def flowMembers : Nat → Bool → List Token → Except Fault (List (Node × Node) × List Token)
  | _, _, .flowMappingEnd :: rest => .ok ([], rest)
  | n + 1, true, .key :: rest => do
    let (k, rest) ← unlessEnded n endsFlowKey .flow rest
    let (v, rest) ← flowValue n rest
    let (ms, rest) ← flowMembers n false rest
    pure ((k, v) :: ms, rest)
  | n + 1, true, ts => do
    let (k, rest) ← ofTokens n .flow ts
    let (ms, rest) ← flowMembers n false rest
    pure ((k, absent) :: ms, rest)
  | n + 1, false, .comma :: rest => flowMembers n true rest
  | _, _, ts => .error (unexpected ts)

def flowValue : Nat → List Token → Except Fault (Node × List Token)
  | n + 1, .value :: rest => unlessEnded n endsFlowValue .flow rest
  | _, ts => .ok (absent, ts)

end

/-- Nothing but end marks follows the one document of a text. -/
def finished (ts : List Token) : Except Fault Unit :=
  match ts.dropWhile fun t => match t with | .documentEnd => true | _ => false with
  | [] => .ok ()
  | rest => .error (unexpected rest)

/-- The root of the one document of a text, if there is one. -/
def root (ts : List Token) : Except Fault Node := do
  let fuel := 3 * ts.length + 3
  match ts with
  | [] => pure absent
  | .documentStart :: rest =>
    let ended (t : Token) : Bool := match t with
      | .documentStart | .documentEnd => true
      | _ => false
    let (x, rest) ← if rest.isEmpty then pure (absent, rest) else unlessEnded fuel ended .block rest
    finished rest
    pure x
  | ts => do
    let (x, rest) ← ofTokens fuel .block ts
    finished rest
    pure x

end Node
end Solvency.Yaml
