/-! A place in a YAML text: what is left of the text, and how far into it and into its line the
place is. A byte order mark takes no column. -/
namespace Solvency.Yaml

structure Cursor where
  rest : List Char
  index : Nat := 0
  line : Nat := 0
  column : Nat := 0

def isBreak (c : Char) : Bool :=
  c = '\n' || c = '\r' || c = '\x85' || c = '\u2028' || c = '\u2029'

def isBlank (c : Char) : Bool := c = ' ' || c = '\t'

/-- The text ends here, or goes on with white space. -/
def startsGap : List Char → Bool
  | [] => true
  | c :: _ => isBlank c || isBreak c

namespace Cursor

/-- One character on; a carriage return leaves the end of the line to a line feed after it. -/
def next (p : Cursor) : Cursor :=
  match p.rest with
  | [] => p
  | c :: rest =>
    if isBreak c && !(c = '\r' && rest.head? = some '\n') then ⟨rest, p.index + 1, p.line + 1, 0⟩
    else if c = '\ufeff' then ⟨rest, p.index + 1, p.line, p.column⟩
    else ⟨rest, p.index + 1, p.line, p.column + 1⟩

def skip (p : Cursor) : Nat → Cursor
  | 0 => p
  | n + 1 => p.next.skip n

/-- Past the characters of a kind. -/
def skipWhile (p : Cursor) (kind : Char → Bool) : Cursor :=
  p.skip (p.rest.takeWhile kind).length

/-- The line break that starts here, as it counts in a scalar, and the place after it. -/
def break? (p : Cursor) : Option (Char × Cursor) :=
  match p.rest with
  | '\r' :: '\n' :: _ => some ('\n', p.skip 2)
  | c :: _ =>
    if isBreak c then some (if c = '\u2028' || c = '\u2029' then c else '\n', p.next) else none
  | [] => none

/-- A document marker stands here. -/
def atMarker (p : Cursor) (mark : Char) : Bool :=
  match p.rest with
  | a :: b :: c :: rest => p.column = 0 && a = mark && b = mark && c = mark && startsGap rest
  | _ => false

def atAnyMarker (p : Cursor) : Bool := p.atMarker '-' || p.atMarker '.'

end Cursor
end Solvency.Yaml
