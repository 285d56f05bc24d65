import Solvency.Yaml.Scalar

/-! YAML tokens. Block structure is told by indentation, and the start of a mapping only by the
colon behind its first key: the places where such a key may have begun are remembered and the
tokens for it are put there afterwards. A text that cannot be scanned to its end has its fault as
its last token, at the first place that was still open. Anchors, tags, directives and block scalars
are refused. -/
namespace Solvency.Yaml

inductive Token where
  | blockSequence
  | blockMapping
  | blockEnd
  | entry
  | key
  | value
  | flowSequence
  | flowSequenceEnd
  | flowMapping
  | flowMappingEnd
  | comma
  | documentStart
  | documentEnd
  | plain (cs : List Char)
  | quoted (t : Text)
  | fault (f : Fault)

namespace Token

def opens : Token → Bool
  | .blockSequence | .blockMapping | .flowSequence | .flowMapping => true
  | _ => false

def closes : Token → Bool
  | .blockEnd | .flowSequenceEnd | .flowMappingEnd => true
  | _ => false

/-- How many collections may be inside one another. -/
def deepest : Nat := 490

/-- Tokens up to the first that opens a collection for which there is no room, where the text has
its fault. -/
def nestedWithin : Nat → List Token → List Token
  | _, [] => []
  | room, t :: ts =>
    if t.opens then
      match room with
      | 0 => [.fault .nesting]
      | room + 1 => t :: nestedWithin room ts
    else if t.closes then t :: nestedWithin (room + 1) ts
    else t :: nestedWithin room ts

end Token

/-- A place where a key may have begun: how many tokens there are before it, and where it is. A
required one stands where a line of the mapping around it starts, so it has to be a key. -/
structure Candidate where
  tokensBefore : Nat
  required : Bool
  index : Nat
  line : Nat
  column : Nat

/-- The state of scanning, with the latest token first. There is one place for a candidate per level
of flow collections, the innermost first. -/
structure Scan where
  cursor : Cursor
  tokens : List Token := []
  count : Nat := 0
  indent : Int := -1
  outerIndents : List Int := []
  keyAllowed : Bool := true
  candidate : Option Candidate := none
  outerCandidates : List (Option Candidate) := []

/-- A key ends on its line and takes at most this many characters. -/
def longestKey : Nat := 1024

namespace Scan

def inFlow (s : Scan) : Bool := !s.outerCandidates.isEmpty

def push (s : Scan) (t : Token) : Scan := { s with tokens := t :: s.tokens, count := s.count + 1 }

def advance (s : Scan) (n : Nat) : Scan := { s with cursor := s.cursor.skip n }

/-- Puts a token where a number of tokens have come before. -/
def insertAt (s : Scan) (tokensBefore : Nat) (t : Token) : Scan :=
  let later := s.count - tokensBefore
  { s with tokens := s.tokens.take later ++ t :: s.tokens.drop later, count := s.count + 1 }

def isStale (s : Scan) (c : Candidate) : Bool :=
  c.line != s.cursor.line || decide (longestKey < s.cursor.index - c.index)

/-- A candidate that is given up must not be a required one. -/
def givenUp : Option Candidate → Except Fault Unit
  | some c => if c.required then .error malformed else .ok ()
  | none => .ok ()

def fresh (s : Scan) (c : Option Candidate) : Except Fault (Option Candidate) :=
  if c.any s.isStale then do
    givenUp c
    pure none
  else pure c

def dropStale (s : Scan) : Except Fault Scan := do
  let candidate ← s.fresh s.candidate
  let outerCandidates ← s.outerCandidates.mapM s.fresh
  pure { s with candidate, outerCandidates }

/-- Forgets the candidate of this level. -/
def forget (s : Scan) : Except Fault Scan := do
  givenUp s.candidate
  pure { s with candidate := none }

/-- Remembers that a key may begin here. -/
def remember (s : Scan) : Except Fault Scan :=
  if s.keyAllowed then do
    givenUp s.candidate
    let required := !s.inFlow && decide (s.indent = s.cursor.column)
    pure { s with
      candidate := some ⟨s.count, required, s.cursor.index, s.cursor.line, s.cursor.column⟩ }
  else .ok s

/-- Ends the blocks that are indented more than a column. -/
def unwind (s : Scan) (column : Int) : Scan :=
  if s.inFlow then s else go s s.outerIndents
where
  go (s : Scan) : List Int → Scan
    | [] => s
    | outer :: rest =>
      if column < s.indent then
        go { s.push .blockEnd with indent := outer, outerIndents := rest } rest
      else s

/-- Starts a block at a column that is indented more than the block around it. -/
def indentTo (s : Scan) (column : Nat) (insert : Scan → Scan) : Scan :=
  if s.indent < column then
    insert { s with indent := column, outerIndents := s.indent :: s.outerIndents }
  else s

def toLineEnd (p : Cursor) : Cursor := p.skipWhile fun c => !isBreak c

/-- Over spaces, comments and line breaks; a new line of a block may start with a key. -/
def skipGap : Nat → Scan → Scan
  | 0, s => s
  | n + 1, s =>
    let spaced := s.cursor.skipWhile (· = ' ')
    let p := if spaced.rest.head? = some '#' then toLineEnd spaced else spaced
    match p.break? with
    | some (_, q) => skipGap n { s with cursor := q, keyAllowed := s.keyAllowed || !s.inFlow }
    | none => { s with cursor := p }

/-- A marker ends every block. -/
def marker (s : Scan) (t : Token) : Except Fault Scan := do
  let s ← (s.unwind (-1)).forget
  pure ({ s with keyAllowed := false }.push t |>.advance 3)

/-- At this depth the first collection that is too deep is settled already, so that there is no need
to scan on. -/
def openFlow (s : Scan) (t : Token) : Except Fault Scan := do
  if Token.deepest + longestKey + 1 < s.outerCandidates.length then throw .nesting
  let s ← s.remember
  let s := { s with
    candidate := none, outerCandidates := s.candidate :: s.outerCandidates, keyAllowed := true }
  pure (s.push t |>.advance 1)

def closeFlow (s : Scan) (t : Token) : Except Fault Scan := do
  let s ← s.forget
  match s.outerCandidates with
  | [] => .error malformed
  | outer :: rest =>
    let s := { s with candidate := outer, outerCandidates := rest, keyAllowed := false }
    pure (s.push t |>.advance 1)

def comma (s : Scan) : Except Fault Scan := do
  let s ← s.forget
  pure ({ s with keyAllowed := true }.push .comma |>.advance 1)

/-- An indicator that may open a block of its kind where a line of one can start. -/
def blockStart (s : Scan) (t : Token) : Except Fault Scan :=
  if s.inFlow then .ok s
  else if s.keyAllowed then .ok (s.indentTo s.cursor.column (·.push t))
  else .error malformed

def entry (s : Scan) : Except Fault Scan := do
  let s ← s.blockStart .blockSequence
  let s ← { s with keyAllowed := true }.forget
  pure (s.push .entry |>.advance 1)

def key (s : Scan) : Except Fault Scan := do
  let s ← s.blockStart .blockMapping
  let s ← { s with keyAllowed := !s.inFlow }.forget
  pure (s.push .key |>.advance 1)

/-- A colon makes the candidate of its level a key. -/
def value (s : Scan) : Except Fault Scan := do
  match s.candidate with
  | some c =>
    let s := { s with candidate := none, keyAllowed := false }.insertAt c.tokensBefore .key
    let s :=
      if s.inFlow then s else s.indentTo c.column (·.insertAt c.tokensBefore .blockMapping)
    pure (s.push .value |>.advance 1)
  | none =>
    let s ← s.blockStart .blockMapping
    pure ({ s with keyAllowed := !s.inFlow }.push .value |>.advance 1)

def quotedScalar (s : Scan) (quote : Char) : Except Fault Scan := do
  let s ← s.remember
  let start := s.cursor.next
  let (t, p) ← quoted quote (start.rest.length + 1) start
  pure { s.push (.quoted t) with cursor := p, keyAllowed := false }

def plainScalar (s : Scan) : Except Fault Scan := do
  let s ← s.remember
  let found := plain s.inFlow s.indent s.cursor.rest.length s.cursor
  pure { s.push (.plain found.content) with cursor := found.after, keyAllowed := found.overLines }

/-- Characters that start no plain scalar by themselves. -/
def indicators : List Char := "-?:,[]\x7b\x7d#&*!|>'\"%@\x60".toList

/-- A plain scalar starts with the character, which `rest` follows. -/
def startsPlain (inFlow : Bool) (c : Char) (rest : List Char) : Bool :=
  !(isBlank c || isBreak c || indicators.contains c) ||
  (!startsGap rest && (c = '-' || (!inFlow && (c = '?' || c = ':'))))

/-- Adds the token that starts at the cursor, which is at a character `c` before `rest`. -/
def token (s : Scan) (c : Char) (rest : List Char) : Except Fault Scan :=
  if s.cursor.atMarker '-' then s.marker .documentStart
  else if s.cursor.atMarker '.' then s.marker .documentEnd
  else if c = '[' then s.openFlow .flowSequence
  else if c = '{' then s.openFlow .flowMapping
  else if c = ']' then s.closeFlow .flowSequenceEnd
  else if c = '}' then s.closeFlow .flowMappingEnd
  else if c = ',' then s.comma
  else if c = '-' && startsGap rest then s.entry
  else if c = '?' && (s.inFlow || startsGap rest) then s.key
  else if c = ':' && (s.inFlow || startsGap rest) then s.value
  else if c = '\'' || c = '"' then s.quotedScalar c
  else if startsPlain s.inFlow c rest then s.plainScalar
  else .error malformed

/-- Scans one token more, or to the end of the text and then answers `none`. -/
def step (s : Scan) : Except Fault (Scan × Bool) := do
  let s := s.skipGap (s.cursor.rest.length + 1)
  let s ← s.dropStale
  match s.cursor.rest with
  | [] => do
    let s ← (s.unwind (-1)).forget
    pure (s, true)
  | c :: rest => do
    let s ← (s.unwind s.cursor.column).token c rest
    pure (s, false)

/-- How many tokens come before every candidate. -/
def settled (s : Scan) : Nat :=
  (s.candidate :: s.outerCandidates).foldl (fun n c => min n ((c.map (·.tokensBefore)).getD n))
    s.count

def failed (s : Scan) (f : Fault) : List Token :=
  (s.tokens.drop (s.count - s.settled)).reverse ++ [.fault f]

/-- The tokens up to the first fault, in the order of the text. -/
def run : Nat → Scan → List Token
  | 0, s => s.failed malformed
  | n + 1, s =>
    match s.dropStale with
    | .error f => s.failed f
    | .ok s =>
      match s.step with
      | .error f => s.failed f
      | .ok (s, true) => s.tokens.reverse
      | .ok (s, false) => run n s

end Scan

def tokens (cs : List Char) : List Token :=
  let start : Cursor := ⟨cs, 0, 0, 0⟩
  let start := if cs.head? = some '\ufeff' then start.next else start
  Token.nestedWithin Token.deepest (Scan.run (cs.length + 1) { cursor := start })

end Solvency.Yaml
