import Solvency.Binary64.Text
import Solvency.Yaml.Node

/-! What plain scalars stand for. Beside texts these are null, truth values, integers in four bases
and floats; integers and floats may have underscores among their digits and be written in base
sixty with colons. -/
namespace Solvency.Yaml

def isGroupedDigit (c : Char) : Bool := c.isDigit || c = '_'

def ungrouped (cs : List Char) : List Char := cs.filter (· ≠ '_')

/-- A sign, and what follows it. -/
def signed (cs : List Char) : Bool × List Char :=
  match cs with
  | '-' :: rest => (true, rest)
  | '+' :: rest => (false, rest)
  | cs => (false, cs)

/-- The number of grouped digits in a base other than ten. -/
def based (base : Nat) (digits : List Char) : Except Fault Nat :=
  match ungrouped digits with
  | [] => .error .emptyNumeral
  | ds => .ok (Numeral.value base ds)

def decimal (digits : List Char) : Except Fault Nat :=
  let ds := ungrouped digits
  if digitLimit < ds.length then .error .digitLimit else .ok (Numeral.value 10 ds)

/-- A place of a number in base sixty. -/
def sixtieth? : List Char → Option Nat
  | [u] => if u.isDigit then some (Numeral.value 10 [u]) else none
  | [t, u] =>
    if '0' ≤ t && t ≤ '5' && u.isDigit then some (Numeral.value 10 [t, u]) else none
  | _ => none

/-- The parts of a scalar between colons. -/
def colonParts : List Char → List (List Char)
  | [] => [[]]
  | ':' :: rest => [] :: colonParts rest
  | c :: rest =>
    match colonParts rest with
    | part :: parts => (c :: part) :: parts
    | [] => [[c]]

/-- The number without a sign that a scalar spells. A zero in front marks base eight. -/
def natural? : List Char → Option (Except Fault Nat)
  | '0' :: 'b' :: c :: ds =>
    if (c :: ds).all fun c => c = '0' || c = '1' || c = '_' then some (based 2 (c :: ds)) else none
  | '0' :: 'x' :: c :: ds =>
    if (c :: ds).all fun c => Numeral.isHexDigit c || c = '_' then some (based 16 (c :: ds))
    else none
  | '0' :: ds =>
    if ds.all fun c => ('0' ≤ c && c ≤ '7') || c = '_' then some (based 8 ('0' :: ds)) else none
  | cs =>
    match colonParts cs with
    | [] => none
    | whole :: places =>
      if !(whole.head?.any Char.isDigit && whole.all isGroupedDigit) then none
      else do
        let places ← places.mapM sixtieth?
        some ((decimal whole).map fun n => places.foldl (fun n place => 60 * n + place) n)

def integer? (cs : List Char) : Option (Except Fault Int) :=
  let (negative, unsigned) := signed cs
  (natural? unsigned).map fun read =>
    read.map fun n => if negative then -(n : Int) else n

/-- A whole part, a point, and a fraction that may be empty. -/
def pointed? (cs : List Char) : Option (List Char × List Char × List Char) :=
  match cs.dropWhile isGroupedDigit with
  | '.' :: rest =>
    some (cs.takeWhile isGroupedDigit, rest.takeWhile isGroupedDigit, rest.dropWhile isGroupedDigit)
  | _ => none

def isExponent : List Char → Bool
  | [] => true
  | e :: sign :: digits =>
    (e = 'e' || e = 'E') && (sign = '+' || sign = '-') && !digits.isEmpty && digits.all Char.isDigit
  | _ => false

/-- A decimal with a point. A sign needs digits in front of the point. -/
def decimalFloat? (negative marked : Bool) (unsigned : List Char) : Option Binary64 := do
  let (whole, fraction, power) ← pointed? unsigned
  let leads := if whole.isEmpty then !marked && fraction.head?.any Char.isDigit
    else whole.head?.any Char.isDigit
  if !(leads && isExponent power) then none
  else
    let x ← Binary64.read? (ungrouped unsigned)
    some (if negative then x.negated else x)

/-- The sum of the parts of a number in base sixty, from the last part on, which has the fraction. It
is taken in floating point, so that the weight of each part has to be in the range of floats. -/
def sixtiethSum (parts : List Binary64) : Except Fault Binary64 :=
  let weight (place : Nat) : Binary64 := Binary64.ofDecimal (Nat.pow 60 place) 0
  if !(weight (parts.length - 1)).isFinite then .error .floatRange
  else
    let add (sum : Float) (part : Binary64 × Nat) : Float :=
      sum + Float.ofBits part.1.bits * Float.ofBits (weight part.2).bits
    .ok ⟨(parts.reverse.zipIdx.foldl add 0).toBits⟩

/-- A number in base sixty with a point. -/
def sixtiethFloat? (negative : Bool) (unsigned : List Char) : Option (Except Fault Binary64) :=
  match colonParts unsigned with
  | whole :: place :: places => do
    let parts := place :: places
    let (unit, fraction, after) ← (parts.getLast?).bind pointed?
    let middle ← parts.dropLast.mapM sixtieth?
    let last ← sixtieth? unit
    if !(whole.head?.any Char.isDigit && whole.all isGroupedDigit && after.isEmpty) then none
    else
      let first ← Binary64.read? (ungrouped whole)
      let fine ← Binary64.read? (Nat.toDigits 10 last ++ '.' :: ungrouped fraction)
      let sum := sixtiethSum (first :: middle.map (Binary64.ofDecimal · 0) ++ [fine])
      some (sum.map fun x => if negative then x.negated else x)
  | _ => none

def namedFloats : List (List String × Binary64) :=
  [([".inf", ".Inf", ".INF", "+.inf", "+.Inf", "+.INF"], Binary64.infinity),
   (["-.inf", "-.Inf", "-.INF"], Binary64.infinity.negated),
   ([".nan", ".NaN", ".NAN"], Binary64.nan)]

def float? (cs : List Char) : Option (Except Fault Binary64) :=
  match namedFloats.find? fun n => n.1.any fun name => name.toList == cs with
  | some (_, x) => some (.ok x)
  | none =>
    let (negative, unsigned) := signed cs
    let marked := unsigned.length != cs.length
    match decimalFloat? negative marked unsigned with
    | some x => some (.ok x)
    | none => sixtiethFloat? negative unsigned

def nulls : List String := ["", "~", "null", "Null", "NULL"]

def truths : List String :=
  ["yes", "Yes", "YES", "true", "True", "TRUE", "on", "On", "ON"]

def falsehoods : List String :=
  ["no", "No", "NO", "false", "False", "FALSE", "off", "Off", "OFF"]

def isOneOf (words : List String) (cs : List Char) : Bool := words.any fun w => w.toList == cs

/-- The mark of a member whose value is merged into the mapping. -/
def mergeMark : List Char := ['<', '<']

/-- The mark of a mapping's own value, of which there is no use. -/
def valueMark : List Char := ['=']

def scalar (cs : List Char) : Except Fault Document :=
  if isOneOf nulls cs then .ok .null
  else if isOneOf truths cs then .ok (.bool true)
  else if isOneOf falsehoods cs then .ok (.bool false)
  else
    match integer? cs, float? cs with
    | some read, _ => do
      let n ← read
      pure (.integer n)
    | none, some read => do
      let x ← read
      pure (.float x)
    | none, none =>
      if cs = mergeMark ∨ cs = valueMark then .error malformed else .ok (.text (Text.ofChars cs))

end Solvency.Yaml
