import Solvency.Document.Literal
import Solvency.Document.Location
import Solvency.Validity.Invariant
import Solvency.Width

/-! Everything that can go wrong, by cause. A `MarginFault` is a finding about one account or its
configuration and carries a stable code; a sweep records it and goes on. Every other fault ends
the call that met it. A message never writes an integer that has no numeral: where one would be
due, the fault becomes `digitLimit`. -/
namespace Solvency

/-- Unusable protocol data, account slots or settings. -/
inductive ConfigFault where
  | noCollateralEntry (index : Int)
  | emptyCollateral (index : Int)
  | noMarketEntry (index : Int)
  | emptyMarket (index : Int)
  | inactiveCollateral (index : Int)
  | noCollateralConfig (index : Int)
  | feeAboveFactor (fee factor : Int)
  | violated (invariants : List Invariant)
  | requirements (maintenance initial : Int)
  | retries (n : Int)
  | fudge (n : Int)
  | unknownKeys (keys : List Text)
  | notBool (key : Text)
  | notInt (key : Text)
  | notMapping (file : Text)

/-- What a quotient is taken in. -/
inductive Division where
  | within (w : Width)
  | fixedPoint

inductive MarginFault where
  | overflow (width : Width) (value : Int)
  | divisionByZero (division : Division) (dividend : Int)
  | zeroDenominator
  | priceUnavailable (symbol : Text)
  | noPositions
  | config (cause : ConfigFault)
  | timeout (attempts : Int) (last : Text)

/-- Why a field of a document cannot be read; `name` is the field as messages call it. -/
inductive FieldFault where
  | notMapping (name : String)
  | notList (name : String)
  | missing (key : String)
  | notInteger (name : String) (got : Document)
  | notAmount (name : String)
  | notDecimal (name : String) (got : Text)
  | tooFine (name : String) (got : Text)
  | tooLarge
  | notKeyText (name kind : String)
  | keyWidth (got : Document)
  | notHex (name : String) (got : Text)
  | keyLength (name : String) (bytes : Int) (digits : Nat)

/-- What the canonical form cannot hold. -/
inductive Inexact where
  | float (x : Binary64)
  | surrogate
  | key (k : Document)

inductive FileFault where
  | notFound
  | isDirectory
  | notDirectory
  | nameTooLong
  | nullInPath
  | notEncodable
  | notUtf8
  | malformedJson
  | malformedYaml
  | format (extension : Text)
  | notMapping (file : Text)
  | accountCount (file : Text) (count : Nat)

inductive Fault where
  | margin (f : MarginFault)
  | field (f : FieldFault)
  | inexact (location : Location) (what : Inexact)
  | file (f : FileFault)
  | notInteger (kind : String)
  | noOperand
  | lengths (factors notionals : Nat)
  | attempts (n : Int)
  | slotOutOfRange
  | floatRange
  | digitLimit
  | emptyNumeral
  | notCodePoint
  | codePointTooLarge
  | nesting
  | notPairs
  | pairLength
  | noKeys
  | unorderedKeys
  | noMembers
  | noEncoding
  | noPath
  | unknownLevel
  | notLevel

namespace ConfigFault

def message : ConfigFault → Text
  | .noCollateralEntry i => Text.ofString s!"collateral slot {i} has no config or accrual entry"
  | .emptyCollateral i => Text.ofString s!"balance held in empty collateral slot {i}"
  | .noMarketEntry i => Text.ofString s!"market slot {i} has no config, mark price or funding index"
  | .emptyMarket i => Text.ofString s!"position open in unconfigured market {i}"
  | .inactiveCollateral i => Text.ofString s!"collateral index {i} is not active"
  | .noCollateralConfig i => Text.ofString s!"collateral slot {i} is empty"
  | .feeAboveFactor fee factor =>
    Text.ofString s!"liquidation fee factor {fee} exceeds target margin factor {factor}"
  | .violated invariants =>
    "invalid snapshot: " ++ Text.joined ", " (invariants.map fun i => Text.ofString i.id)
  | .requirements maintenance initial =>
    "spot margin requirements must satisfy 0 < maint <= initial <= 10000000: " ++
      Text.ofString s!"maint={maintenance} initial={initial}"
  | .retries n => Text.ofString s!"submit_retries must be in [1, 100]: {n}"
  | .fudge n => Text.ofString s!"liquidation_fudge_permille must be in (0, 10000]: {n}"
  | .unknownKeys keys => "unknown config keys: " ++ Text.joined ", " keys
  | .notBool key => key ++ " must be a bool"
  | .notInt key => key ++ " must be an int"
  | .notMapping file => "config file " ++ file ++ " must be a mapping"

/-- The names that a report lists beside the message. -/
def violations : ConfigFault → List Text
  | .violated invariants => invariants.map fun i => Text.ofString i.id
  | .unknownKeys keys => keys
  | _ => []

def cited : ConfigFault → List Int
  | .noCollateralEntry i | .emptyCollateral i | .noMarketEntry i | .emptyMarket i
  | .inactiveCollateral i | .noCollateralConfig i | .retries i | .fudge i => [i]
  | .feeAboveFactor fee factor => [fee, factor]
  | .requirements maintenance initial => [maintenance, initial]
  | _ => []

end ConfigFault

def Division.name : Division → String
  | .within w => w.name
  | .fixedPoint => "fixed"

namespace MarginFault

def message : MarginFault → Text
  | .overflow w v => Text.ofString s!"{w.name} overflow: {v}"
  | .divisionByZero d n => Text.ofString s!"{d.name} division by zero: {n} / 0"
  | .zeroDenominator => "liquidation denominator is zero"
  | .priceUnavailable symbol => Text.ofString s!"no oracle price for {symbol.quoted}"
  | .noPositions => "account has no active positions"
  | .config cause => cause.message
  | .timeout n _ => Text.ofString s!"request not accepted after {n} attempts"

/-- The stable identifier that reports carry. -/
def code : MarginFault → String
  | .overflow .. => "overflow"
  | .divisionByZero .. => "division_by_zero"
  | .zeroDenominator => "division_by_zero"
  | .priceUnavailable _ => "price_unavailable"
  | .noPositions => "no_positions"
  | .config _ => "config"
  | .timeout .. => "timeout_exceeded"

def cited : MarginFault → List Int
  | .overflow _ v => [v]
  | .divisionByZero _ n => [n]
  | .config cause => cause.cited
  | .timeout n _ => [n]
  | _ => []

end MarginFault

namespace FieldFault

def message : FieldFault → Text
  | .notMapping name => Text.ofString s!"{name} must be a mapping"
  | .notList name => Text.ofString s!"{name} must be a list"
  | .missing key => Text.ofString (Text.ofString key).quoted
  | .notInteger name got => Text.ofString s!"{name} must be an int, got {got.literal}"
  | .notAmount name => Text.ofString s!"{name} must be an int or decimal string"
  | .notDecimal name got => Text.ofString s!"{name} must be a decimal string: {got.quoted}"
  | .tooFine name got => Text.ofString s!"{name} has more than 12 decimal places: {got.quoted}"
  | .tooLarge => "amount is out of range"
  | .notKeyText name kind => Text.ofString s!"{name} must be a hex string, got {kind}"
  | .keyWidth got => Text.ofString s!"nbytes must be a positive int, got {got.literal}"
  | .notHex name got => Text.ofString s!"{name} must be hex: {got.quoted}"
  | .keyLength name bytes digits =>
    Text.ofString s!"{name} must be {bytes} bytes, got {digits} hex digits"

def cited : FieldFault → List Int
  | .notInteger _ got | .keyWidth got => got.integers
  | .keyLength _ bytes _ => [bytes]
  | _ => []

end FieldFault

namespace Inexact

def message : Inexact → Text
  | .float x => Text.ofString s!"float {x.text} is not allowed, use a decimal string"
  | .surrogate => "surrogate code points are not allowed"
  | .key k => Text.ofString s!"mapping key {k.literal} is not a str"

end Inexact

namespace FileFault

def message : FileFault → Text
  | .notFound => "no such file"
  | .isDirectory => "is a directory"
  | .notDirectory => "not a directory"
  | .nameTooLong => "file name too long"
  | .nullInPath => "null character in path"
  | .notEncodable => "path that no bytes stand for"
  | .notUtf8 => "not UTF-8 text"
  | .malformedJson => "malformed JSON"
  | .malformedYaml => "malformed YAML"
  | .format extension =>
    Text.ofString s!"unsupported snapshot format: {extension.quoted} " ++
      "(expected .yaml, .yml or .json)"
  | .notMapping file => "snapshot file " ++ file ++ " must be a mapping"
  | .accountCount file count =>
    file ++ Text.ofString s!" holds {count} accounts; use load_snapshots()"

end FileFault

namespace Fault

def message : Fault → Text
  | .margin f => f.message
  | .field f => f.message
  | .inexact location what => location.text ++ ": " ++ what.message
  | .file f => f.message
  | .notInteger kind => Text.ofString s!"expected int, got {kind}"
  | .noOperand => "value is no operand"
  | .lengths factors notionals =>
    Text.ofString s!"factor/notional length mismatch: {factors} != {notionals}"
  | .attempts n => Text.ofString s!"retries must be positive: {n}"
  | .slotOutOfRange => "slot index out of range"
  | .floatRange => "integer out of the range of floats"
  | .digitLimit => "integer has more than 4300 digits"
  | .emptyNumeral => "numeral without digits"
  | .notCodePoint => "not a code point"
  | .codePointTooLarge => "code point does not fit a machine word"
  | .nesting => "collections nested too deep"
  | .notPairs => "not a sequence of pairs"
  | .pairLength => "not a pair"
  | .noKeys => "value has no keys"
  | .unorderedKeys => "keys have no order"
  | .noMembers => "value has no members"
  | .noEncoding => "value has no canonical encoding"
  | .noPath => "not a path"
  | .unknownLevel => "no severity goes by this name"
  | .notLevel => "neither a severity nor the name of one"

/-- The integers that the message writes out; the screen has looked at those in a key before it names
one. -/
def cited : Fault → List Int
  | .margin f => f.cited
  | .field f => f.cited
  | .attempts n => [n]
  | _ => []

end Fault

/-- Fails with a fault, or with `digitLimit` where its message has no numeral to write. -/
def fail {α : Type} (f : Fault) : Except Fault α :=
  .error (if f.cited.all fun n => decide (Writable n) then f else .digitLimit)

end Solvency
