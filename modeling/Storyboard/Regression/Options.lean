import Storyboard.Text.Phrase
/-!
# Command line options

The options of the regression run. A long option may be cut short as long as it stays
unambiguous, and may have its value after an equals sign.
-/

namespace Storyboard.Regression

/-- What the command line asks for. -/
structure Options where
  /-- Runs here instead of against a server. -/
  inProcess : Bool := false
  baseUrl : String := "http://127.0.0.1:8000"
  /-- Where the report is written; nowhere when empty. -/
  out : String := ""
  deriving DecidableEq, Repr

/-- A command line as it is understood. -/
inductive Command where
  | run (o : Options)
  | help
  | misused
  deriving DecidableEq, Repr

namespace Options

/-- The options by their meaning. -/
inductive Flag where
  | help | baseUrl | out | inProcess
  deriving DecidableEq, Repr

/-- A word of the command line. -/
inductive Word where
  | plain
  | option (o : Flag) (value : Option String)
  | unknown
  | ambiguous
  deriving DecidableEq, Repr

def long : List (String × Flag) := [
  ("--help", .help), ("--base-url", .baseUrl), ("--out", .out), ("--inprocess", .inProcess)]

/-- A word that is a negative number is no option. -/
def isNegativeNumber (body : List Char) : Bool :=
  match body.dropWhile Text.isDigit with
  | [] => !body.isEmpty
  | '.' :: rest => !rest.isEmpty && rest.all Text.isDigit
  | _ => false

/-- What a word starting with two dashes means; `value` is what follows its equals sign. -/
def longWord (name : String) (value : Option String) : Option Word :=
  match long.filter fun (full, _) => name.toList.isPrefixOf full.toList with
  | [] => none
  | [(_, o)] => some (.option o value)
  | several =>
    match several.find? fun (full, _) => full = name with
    | some (_, o) => some (.option o value)
    | none => some .ambiguous

/-- What a word means before any word that ends the options. -/
def classify (word : String) : Word :=
  match word.toList with
  | '-' :: '-' :: rest =>
    let name := String.ofList ('-' :: '-' :: rest.takeWhile (· ≠ '='))
    let value := match rest.dropWhile (· ≠ '=') with
      | _ :: after => some (String.ofList after)
      | [] => none
    (longWord name value).getD (if rest.contains ' ' then .plain else .unknown)
  | '-' :: 'h' :: rest =>
    if rest.isEmpty then .option .help none else .option .help (some (String.ofList rest))
  | '-' :: c :: rest =>
    if isNegativeNumber (c :: rest) || (c :: rest).contains ' ' then .plain else .unknown
  | _ => .plain

/-- Reads the words in order. A word that is out of place only counts at the end, so that help
can still be asked for. -/
def scan (misplaced : Bool) (o : Options) : List String → Command
  | [] => if misplaced then .misused else .run o
  | word :: rest =>
    if word = "--" then .misused
    else match classify word with
      | .plain | .unknown => scan true o rest
      | .ambiguous => .misused
      | .option .help none => .help
      | .option .help (some more) =>
        if more.toList.all (· == 'h') && !more.isEmpty then .help else .misused
      | .option .inProcess none => scan misplaced { o with inProcess := true } rest
      | .option .inProcess (some _) => .misused
      | .option .out (some value) => scan misplaced { o with out := value } rest
      | .option .baseUrl (some value) => scan misplaced { o with baseUrl := value } rest
      | .option .out none =>
        match rest with
        | value :: rest =>
          if value ≠ "--" && classify value = .plain then
            scan misplaced { o with out := value } rest
          else .misused
        | [] => .misused
      | .option .baseUrl none =>
        match rest with
        | value :: rest =>
          if value ≠ "--" && classify value = .plain then
            scan misplaced { o with baseUrl := value } rest
          else .misused
        | [] => .misused

/-- The command that some words give. -/
def ofArgs (args : List String) : Command :=
  if (args.takeWhile (· ≠ "--")).any fun word => classify word = .ambiguous then .misused
  else scan false {} args

end Options

end Storyboard.Regression
