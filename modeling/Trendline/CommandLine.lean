import Trendline.Decimal.Numeral
import Trendline.Interval
import Trendline.Word

/-!
The options of the command line. A value stands in the same argument behind an equals sign, or is
the next argument if that does not look like an option. Arguments are judged one after the other,
so that of two reasons to stop the first one counts.
-/
namespace Trendline

/-- An option that takes a value. -/
inductive Setting where
  | input
  | params
  | symbol
  | lookbacks
  | topN
  | output
  deriving Repr, DecidableEq

namespace Setting

def name : Setting → String
  | .input => "input"
  | .params => "params"
  | .symbol => "symbol"
  | .lookbacks => "lookbacks"
  | .topN => "top-n"
  | .output => "output"

def all : List Setting :=
  [.input, .params, .symbol, .lookbacks, .topN, .output]

def ofName? (name : String) : Option Setting :=
  all.find? (·.name = name)

def purpose : Setting → String
  | .input => "Series file, collection or bare list of bars [default: the demo series]"
  | .params => "Parameter file; omitted keys keep their defaults"
  | .symbol => "Only analyse this symbol"
  | .lookbacks => "Override pivot lookbacks, e.g. 5,10"
  | .topN => "Keep only the best N lines per symbol"
  | .output => "Write overlays here instead of standard output"

theorem mem_all (s : Setting) : s ∈ all := by
  cases s <;> decide

theorem ofName?_name (s : Setting) : ofName? s.name = some s := by
  cases s <;> decide

end Setting

/-- What is wrong with the arguments. -/
inductive Misuse where
  /-- An argument is neither an option nor the value of one. -/
  | unexpected (argument : String)
  | repeated (name : String)
  | missingValue (setting : Setting)
  | invalidValue (setting : Setting) (value : String)
  /-- An option that takes no value was given one. -/
  | needlessValue (name value : String)
  deriving Repr, DecidableEq

def Misuse.message : Misuse → String
  | .unexpected argument => "unexpected argument '" ++ argument ++ "' found"
  | .repeated name => "the argument '--" ++ name ++ "' cannot be used multiple times"
  | .missingValue setting => "a value is required for '--" ++ setting.name ++ "' but none was supplied"
  | .invalidValue setting value => "invalid value '" ++ value ++ "' for '--" ++ setting.name ++ "'"
  | .needlessValue name value => "unexpected value '" ++ value ++ "' for '--" ++ name ++ "' found"

/-- Why the arguments do not lead to a run. -/
inductive Stop where
  | misuse (reason : Misuse)
  /-- The user asked how the program is used. -/
  | help
  /-- The user asked which version this is. -/
  | version
  deriving Repr, DecidableEq

structure Options where
  /-- The file of the series. -/
  input : Option String := none
  /-- The file of the parameters. -/
  params : Option String := none
  /-- The only symbol to work on. -/
  symbol : Option String := none
  /-- Replaces the lookbacks of the parameters. -/
  lookbacks : Option (List Nat) := none
  /-- Replaces how many lines the parameters keep. -/
  topN : Option Nat := none
  /-- The file to write overlays to. -/
  output : Option String := none
  pretty : Bool := false
  deriving Repr, DecidableEq

/-- A line that tells what an option is for. -/
def helpLine (option purpose : String) : String :=
  "  " ++ option ++ String.ofList (List.replicate (20 - option.length) ' ') ++ purpose ++ "\n"

/-- How the program is used. -/
def helpText (program : String) : String :=
  "Usage: " ++ program ++ " [OPTIONS]\n\nOptions:\n"
    ++ String.join (Setting.all.map fun s => helpLine ("--" ++ s.name ++ " <VALUE>") s.purpose)
    ++ helpLine "--pretty" "Write overlays with line breaks"
    ++ helpLine "-h, --help" "Print help"
    ++ helpLine "-V, --version" "Print version"

/-- An argument by its look. -/
inductive Argument where
  /-- An option by its name, perhaps with a value. -/
  | long (name : String) (value : Option String)
  /-- Options of one letter. -/
  | short (first : Char) (rest : List Char)
  /-- Ends the options. -/
  | finish
  | plain
  deriving Repr, DecidableEq

/-- What follows two dashes, up to an equals sign and behind it. -/
def Argument.ofLong (cs : List Char) : Argument :=
  let name := String.ofList (cs.takeWhile (· ≠ '='))
  match cs.dropWhile (· ≠ '=') with
  | [] => .long name none
  | _ :: value => .long name (some (String.ofList value))

def Argument.ofText (text : String) : Argument :=
  match text.toList with
  | ['-', '-'] => .finish
  | '-' :: '-' :: cs => .ofLong cs
  | '-' :: c :: cs => .short c cs
  | _ => .plain

/-- The count that a text gives: digits, perhaps behind a plus sign, for a number of at most
sixty-four bits. -/
def count? (text : String) : Option Nat := do
  let digits :=
    match text.toList with
    | '+' :: cs => cs
    | cs => cs
  if digits.isEmpty then none
  let n := Decimal.valueOf (← digits.mapM Decimal.Digit.ofChar?)
  if n < wordCount then some n else none

namespace Options

/-- The first value of an option that may be given once. -/
def once {α : Type} (setting : Setting) (before : Option α) (text : String)
    (read? : String → Option α) : Except Misuse (Option α) :=
  match before, read? text with
  | some _, _ => .error (.repeated setting.name)
  | none, none => .error (.invalidValue setting text)
  | none, some value => .ok (some value)

/-- The name of a file, which is not empty. -/
def path? (text : String) : Option String :=
  if text.isEmpty then none else some text

/-- Gives an option a value. Lookbacks between commas add up. -/
def set (o : Options) (setting : Setting) (text : String) : Except Misuse Options :=
  match setting with
  | .input => do return { o with input := ← once .input o.input text path? }
  | .params => do return { o with params := ← once .params o.params text path? }
  | .symbol => do return { o with symbol := ← once .symbol o.symbol text some }
  | .lookbacks =>
      match (text.splitOn ",").mapM count? with
      | none => .error (.invalidValue .lookbacks text)
      | some more => .ok { o with lookbacks := some (o.lookbacks.getD [] ++ more) }
  | .topN => do return { o with topN := ← once .topN o.topN text count? }
  | .output => do return { o with output := ← once .output o.output text path? }

/-- Gives an option a value, or stops. -/
def give (o : Options) (setting : Setting) (text : String) : Except Stop Options :=
  (o.set setting text).mapError .misuse

/-- What an option without a value does. -/
def flag (o : Options) (name : String) : Except Stop Options :=
  match name with
  | "help" => .error .help
  | "version" => .error .version
  | "pretty" =>
      if o.pretty then .error (.misuse (.repeated name)) else .ok { o with pretty := true }
  | _ => .error (.misuse (.unexpected ("--" ++ name)))

/-- What an option without a value does that was given one. -/
def flagWithValue (name value : String) : Except Stop Options :=
  if ["help", "version", "pretty"].contains name then
    .error (.misuse (.needlessValue name value))
  else
    .error (.misuse (.unexpected ("--" ++ name)))

/-- What an option of one letter does. -/
def letter (c : Char) : Stop :=
  match c with
  | 'h' => .help
  | 'V' => .version
  | c => .misuse (.unexpected (String.ofList ['-', c]))

/-- Goes on with the arguments behind those that `o` comes from. -/
def read (o : Options) : List String → Except Stop Options
  | [] => .ok o
  | argument :: rest =>
      match Argument.ofText argument with
      | .plain => .error (.misuse (.unexpected argument))
      | .short c _ => .error (letter c)
      | .finish =>
          match rest with
          | [] => .ok o
          | extra :: _ => .error (.misuse (.unexpected extra))
      | .long name value =>
          match Setting.ofName? name, value, rest with
          | none, none, rest => do (← o.flag name).read rest
          | none, some value, _ => flagWithValue name value
          | some setting, some value, rest => do (← o.give setting value).read rest
          | some setting, none, [] => .error (.misuse (.missingValue setting))
          | some setting, none, value :: rest =>
              if Argument.ofText value = .plain then do (← o.give setting value).read rest
              else .error (.misuse (.missingValue setting))

/-- The options that the arguments give. -/
def ofArguments (arguments : List String) : Except Stop Options :=
  read {} arguments

/-- The file of the series; by default that of the daily bars. -/
def inputPath (o : Options) : String :=
  o.input.getD (seriesFilePath dayInterval)

end Options

end Trendline
