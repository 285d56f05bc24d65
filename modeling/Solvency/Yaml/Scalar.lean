import Solvency.Fault
import Solvency.Yaml.Cursor

/-! Scalars in the text. Line breaks inside a scalar are folded: a single one becomes a space, and
of several the first is dropped. A document marker at the start of a line ends a plain scalar and
is an error inside a quoted one. -/
namespace Solvency.Yaml

def malformed : Fault := .file .malformedYaml

/-- The breaks among blanks and empty lines, up to the next marker or character of another kind. -/
def emptyLines (blank : Char → Bool) : Nat → Cursor → List Char × Cursor
  | 0, p => ([], p)
  | n + 1, p =>
    if p.atAnyMarker then ([], p)
    else if p.rest.head?.any blank then emptyLines blank n p.next
    else
      match p.break? with
      | some (b, q) =>
        let (bs, r) := emptyLines blank n q
        (b :: bs, r)
      | none => ([], p)

/-- What a break and the breaks after it fold into. -/
def folded (b : Char) (bs : List Char) : List Char :=
  if b ≠ '\n' then b :: bs else if bs.isEmpty then [' '] else bs

/-- White space inside a scalar, what it stands for if the scalar goes on, and whether it goes
over lines. -/
structure Gap where
  content : List Char
  overLines : Bool
  after : Cursor

def gap (blank : Char → Bool) (p : Cursor) : Gap :=
  let q := p.skipWhile blank
  match q.break? with
  | some (b, start) =>
    let (bs, after) := emptyLines blank start.rest.length start
    ⟨folded b bs, true, after⟩
  | none => ⟨p.rest.takeWhile blank, false, q⟩

/-- Brackets and commas belong to the flow collection around a scalar. -/
def isFlowIndicator (c : Char) : Bool :=
  c = ',' || c = '[' || c = ']' || c = '{' || c = '}'

/-- A plain scalar does not go past this character. -/
def endsPlain (inFlow : Bool) (c : Char) (rest : List Char) : Bool :=
  isBlank c || isBreak c ||
  (c = ':' && (startsGap rest || (inFlow && rest.head?.any isFlowIndicator))) ||
  (inFlow && (c = '?' || isFlowIndicator c))

def plainRun (inFlow : Bool) : List Char → List Char
  | [] => []
  | c :: rest => if endsPlain inFlow c rest then [] else c :: plainRun inFlow rest

structure Plain where
  content : List Char
  /-- The scalar ends behind a line break. -/
  overLines : Bool
  after : Cursor

/-- A plain scalar in a block of the given indentation: runs of characters with gaps between. It
ends before a comment and, outside flow collections, before a line that is indented less. -/
def plain (inFlow : Bool) (indent : Int) : Nat → Cursor → Plain
  | 0, p => ⟨[], false, p⟩
  | n + 1, p =>
    let run := plainRun inFlow p.rest
    let g := gap (· = ' ') (p.skip run.length)
    let goesOn := !g.content.isEmpty && !(g.overLines && g.after.atAnyMarker) &&
      g.after.rest.head? != some '#' && (inFlow || decide (indent < g.after.column)) &&
      !(plainRun inFlow g.after.rest).isEmpty
    if goesOn then
      let more := plain inFlow indent n g.after
      ⟨run ++ g.content ++ more.content, more.overLines, more.after⟩
    else ⟨run, g.overLines, g.after⟩

def escaped? : Char → Option Char
  | '0' => some '\x00'
  | 'a' => some '\x07'
  | 'b' => some '\x08'
  | 't' => some '\t'
  | '\t' => some '\t'
  | 'n' => some '\n'
  | 'v' => some '\x0b'
  | 'f' => some '\x0c'
  | 'r' => some '\r'
  | 'e' => some '\x1b'
  | ' ' => some ' '
  | '"' => some '"'
  | '\\' => some '\\'
  | '/' => some '/'
  | 'N' => some '\x85'
  | '_' => some '\xa0'
  | 'L' => some '\u2028'
  | 'P' => some '\u2029'
  | _ => none

/-- How many hexadecimal digits follow the letter of an escape. -/
def escapeWidth? : Char → Option Nat
  | 'x' => some 2
  | 'u' => some 4
  | 'U' => some 8
  | _ => none

/-- The code point that the digits of an escape name. -/
def escapedPoint (digits : List Char) : Except Fault CodePoint :=
  let n := Numeral.value 16 digits
  match CodePoint.ofNumber? n with
  | some p => .ok p
  | none => .error (if n < twoTo 31 then .notCodePoint else .codePointTooLarge)

/-- The breaks in front of a line of a quoted scalar, which no marker starts. -/
def quotedLines (p : Cursor) : Except Fault (List Char × Cursor) :=
  let (bs, q) := emptyLines isBlank p.rest.length p
  if q.atAnyMarker then .error malformed else .ok (bs, q)

/-- What a backslash in front of this place stands for. -/
def escape (p : Cursor) : Except Fault (Text × Cursor) :=
  match p.rest with
  | [] => .error malformed
  | c :: rest =>
    match escaped? c, escapeWidth? c, p.break? with
    | some e, _, _ => .ok ([.char e], p.next)
    | none, some width, _ =>
      let digits := rest.take width
      if digits.length = width && digits.all Numeral.isHexDigit then do
        let point ← escapedPoint digits
        pure ([point], p.skip (width + 1))
      else .error malformed
    | none, none, some (_, q) => do
      let (bs, q) ← quotedLines q
      pure (Text.ofChars bs, q)
    | none, none, none => .error malformed

/-- White space inside a quoted scalar. -/
def quotedGap (p : Cursor) : Except Fault (Text × Cursor) :=
  let g := gap isBlank p
  if g.overLines && g.after.atAnyMarker then .error malformed
  else .ok (Text.ofChars g.content, g.after)

/-- A quoted scalar from behind its first quote on. Between single quotes two of them are one,
between double quotes a backslash escapes. -/
def quoted (quote : Char) : Nat → Cursor → Except Fault (Text × Cursor)
  | 0, _ => .error malformed
  | n + 1, p =>
    match p.rest with
    | [] => .error malformed
    | c :: rest =>
      if c = quote && quote = '\'' && rest.head? = some '\'' then do
        let (t, q) ← quoted quote n (p.skip 2)
        pure (.char c :: t, q)
      else if c = quote then .ok ([], p.next)
      else if c = '\\' && quote = '"' then do
        let (e, q) ← escape p.next
        let (t, q) ← quoted quote n q
        pure (e ++ t, q)
      else if isBlank c || isBreak c then do
        let (g, q) ← quotedGap p
        let (t, q) ← quoted quote n q
        pure (g ++ t, q)
      else do
        let (t, q) ← quoted quote n p.next
        pure (.char c :: t, q)

end Solvency.Yaml
