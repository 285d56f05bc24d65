import Solvency.Text.DecimalDigit

/-! The arguments of the command: snapshot files and the options `--config`, `--log-level` and
`--help`, which may be shortened as long as they stay apart. The files stand together; a word that
comes behind them and an option belongs to nothing. After `--` every word is a file. -/
namespace Solvency.CommandLine

inductive Flag where
  | help
  | config
  | logLevel
  deriving DecidableEq, Repr

def Flag.name : Flag → Text
  | .help => "--help"
  | .config => "--config"
  | .logLevel => "--log-level"

def Flag.all : List Flag := [.help, .config, .logLevel]

/-- What a word on the command line is by itself. -/
inductive Word where
  | file (name : Text)
  | terminator
  | flag (f : Flag) (value : Option Text)
  /-- The short form of the help option, with what stands right behind it. -/
  | shortHelp (letters : Text)
  | unknown
  deriving DecidableEq, Repr

/-- A word in front of its first equals sign, and what follows the sign. -/
def assigned (word : Text) : Text × Option Text :=
  match word.dropWhile (· ≠ .char '=') with
  | .char '=' :: value => (word.takeWhile (· ≠ .char '='), some value)
  | _ => (word, none)

/-- A minus sign and a number are no option, nor with a line feed behind them. -/
def isNegativeNumber (word : Text) : Bool :=
  let isDigit (p : CodePoint) : Bool := p.decimalDigit?.isSome
  match word with
  | .char '-' :: rest =>
    let number := if rest.getLast? = some (.char '\n') then rest.dropLast else rest
    match number.dropWhile isDigit with
    | [] => !number.isEmpty
    | .char '.' :: fraction => !fraction.isEmpty && fraction.all isDigit
    | _ => false
  | _ => false

/-- The kind of a word in front of any `--`, unless it may be short for several options. -/
def word? (word : Text) : Option Word :=
  let (name, value) := assigned word
  match word with
  | .char '-' :: .char '-' :: _ =>
    match Flag.all.filter fun f => f.name = name, Flag.all.filter fun f => name.isPrefixOf f.name with
    | [f], _ => some (.flag f value)
    | _, [f] => some (.flag f value)
    | _, [] => some (if word.contains (.char ' ') then .file word else .unknown)
    | _, _ => none
  | .char '-' :: .char 'h' :: letters => some (.shortHelp letters)
  | .char '-' :: _ :: _ =>
    some (if isNegativeNumber word || word.contains (.char ' ') then .file word else .unknown)
  | _ => some (.file word)

/-- What stands behind `-h` repeats its letter, and nothing else. An equals sign may come in front of
the letters, but then there has to be one. -/
def asksForHelp : Text → Bool
  | .char '=' :: letters => !letters.isEmpty && letters.all (· = .char 'h')
  | letters => letters.all (· = .char 'h')

def terminator : Text := "--"

/-- The words of a command line. -/
def words? : List Text → Option (List Word)
  | [] => some []
  | word :: rest =>
    if word = terminator then some (.terminator :: rest.map .file)
    else do
      let w ← word? word
      let ws ← words? rest
      pure (w :: ws)

/-- What the arguments ask for. -/
inductive Request where
  | usage
  | help
  | assess (files : List Text) (config : Option Text) (level : Text)
  deriving DecidableEq, Repr

/-- The arguments read so far; `closed` when an option has come behind the files. -/
structure Arguments where
  files : List Text := []
  config : Option Text := none
  level : Text := "WARNING"
  closed : Bool := false
  surplus : Bool := false

namespace Arguments

def close (a : Arguments) : Arguments := { a with closed := a.closed || !a.files.isEmpty }

def file (a : Arguments) (name : Text) : Arguments :=
  if a.closed then { a with surplus := true } else { a with files := a.files ++ [name] }

def set (a : Arguments) (value : Text) : Flag → Arguments
  | .help => a
  | .config => { a with config := some value }
  | .logLevel => { a with level := value }

def finish (a : Arguments) : Request :=
  if a.files.isEmpty || a.surplus then .usage else .assess a.files a.config a.level

/-- Reads the words from left to right. Help is given as soon as it is asked for, an option without
its value ends the reading, and whatever else is wrong shows at the end. -/
def read (a : Arguments) : List Word → Request
  | [] => a.finish
  | .file name :: rest => (a.file name).read rest
  | .terminator :: rest => { a with surplus := a.surplus || a.closed }.read rest
  | .unknown :: rest => { a.close with surplus := true }.read rest
  | .shortHelp letters :: _ => if asksForHelp letters then .help else .usage
  | .flag .help none :: _ => .help
  | .flag .help (some _) :: _ => .usage
  | .flag f (some value) :: rest => (a.close.set value f).read rest
  | .flag f none :: .file value :: rest => (a.close.set value f).read rest
  | .flag _ none :: _ => .usage

end Arguments

def Request.ofArguments (arguments : List Text) : Request :=
  match words? arguments with
  | some ws => Arguments.read {} ws
  | none => .usage

end Solvency.CommandLine
