import Solvency.Binary64.Text
import Solvency.Document.Basic

/-! JSON tokens. Words may also be `NaN` and the two infinities. Where no token starts, the rest of
the text is one token of its own that no value contains, so scanning never fails by itself. -/
namespace Solvency.Json

inductive Token where
  | openList
  | closeList
  | openMapping
  | closeMapping
  | comma
  | colon
  | text (t : Text)
  | integer (negative : Bool) (digits : List Char)
  | value (d : Document)
  | junk

def isSpace (c : Char) : Bool := c = ' ' || c = '\t' || c = '\n' || c = '\r'

/-- The code point of four hexadecimal digits. -/
def codePoint? (a b c d : Char) : Option CodePoint :=
  if [a, b, c, d].all Numeral.isHexDigit then CodePoint.ofNumber? (Numeral.value 16 [a, b, c, d])
  else none

def escaped? : Char → Option Char
  | '"' => some '"'
  | '\\' => some '\\'
  | '/' => some '/'
  | 'b' => some '\x08'
  | 'f' => some '\x0c'
  | 'n' => some '\n'
  | 'r' => some '\r'
  | 't' => some '\t'
  | _ => none

/-- The code points up to the closing quote, and what follows it. Controls stand in no text. -/
def text? : List Char → Option (Text × List Char)
  | [] => none
  | '"' :: rest => some ([], rest)
  | '\\' :: 'u' :: a :: b :: c :: d :: rest => do
    let p ← codePoint? a b c d
    let (t, rest) ← text? rest
    pure (p :: t, rest)
  | '\\' :: e :: rest => do
    let c ← escaped? e
    let (t, rest) ← text? rest
    pure (.char c :: t, rest)
  | c :: rest =>
    if c.toNat < 0x20 then none
    else do
      let (t, rest) ← text? rest
      pure (.char c :: t, rest)

/-- A high surrogate half and a low one right after it are one character. -/
def joinHalves : Text → Text
  | .half high :: .half low :: rest =>
    if high.val < 0x400 ∧ 0x400 ≤ low.val then
      .char (Char.ofNat (0x10000 + 0x400 * high.val + (low.val - 0x400))) :: joinHalves rest
    else .half high :: joinHalves (.half low :: rest)
  | p :: rest => p :: joinHalves rest
  | [] => []

/-- A point with the digits after it. -/
def fraction (cs : List Char) : List Char × List Char :=
  match cs with
  | '.' :: rest =>
    let digits := rest.takeWhile Char.isDigit
    if digits.isEmpty then ([], cs) else ('.' :: digits, rest.dropWhile Char.isDigit)
  | _ => ([], cs)

/-- An exponent mark with the signed digits after it. -/
def exponent (cs : List Char) : List Char × List Char :=
  match cs with
  | e :: rest =>
    let (sign, rest) := match rest with
      | '+' :: r => (['+'], r)
      | '-' :: r => (['-'], r)
      | r => ([], r)
    let digits := rest.takeWhile Char.isDigit
    if (e = 'e' || e = 'E') && !digits.isEmpty then
      (e :: sign ++ digits, rest.dropWhile Char.isDigit)
    else ([], cs)
  | [] => ([], [])

/-- A number of which the sign has been read. A zero is a whole part by itself. -/
def number? (negative : Bool) (cs : List Char) : Option (Token × List Char) :=
  let (whole, rest) := match cs with
    | '0' :: rest => (['0'], rest)
    | cs => (cs.takeWhile Char.isDigit, cs.dropWhile Char.isDigit)
  if whole.isEmpty then none
  else
    let (places, rest) := fraction rest
    let (power, rest) := exponent rest
    if places.isEmpty && power.isEmpty then some (.integer negative whole, rest)
    else do
      let x ← Binary64.read? (whole ++ places ++ power)
      pure (.value (.float (if negative then x.negated else x)), rest)

def words : List (List Char × Document) :=
  [("null".toList, .null), ("true".toList, .bool true), ("false".toList, .bool false),
   ("NaN".toList, .float Binary64.nan), ("Infinity".toList, .float Binary64.infinity),
   ("-Infinity".toList, .float Binary64.infinity.negated)]

def word? (cs : List Char) : Option (Token × List Char) :=
  (words.find? fun w => w.1.isPrefixOf cs).map fun w => (.value w.2, cs.drop w.1.length)

/-- The token that a text without space in front starts with. -/
def token? : List Char → Option (Token × List Char)
  | '[' :: rest => some (.openList, rest)
  | ']' :: rest => some (.closeList, rest)
  | '{' :: rest => some (.openMapping, rest)
  | '}' :: rest => some (.closeMapping, rest)
  | ',' :: rest => some (.comma, rest)
  | ':' :: rest => some (.colon, rest)
  | '"' :: rest => (text? rest).map fun (t, rest) => (.text (joinHalves t), rest)
  | cs =>
    match word? cs, cs with
    | some found, _ => some found
    | none, '-' :: rest => number? true rest
    | none, cs => number? false cs

/-- At most `n` tokens of a text. -/
def tokens : Nat → List Char → List Token
  | 0, _ => []
  | n + 1, cs =>
    match cs.dropWhile isSpace with
    | [] => []
    | cs =>
      match token? cs with
      | some (t, rest) => t :: tokens n rest
      | none => [.junk]

end Solvency.Json
