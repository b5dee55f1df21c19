import Storyboard.Text.Numeral
import Storyboard.Fault
/-!
# Settings

Limits and defaults that the surroundings of the program can set. A setting that cannot be read
keeps its default, and one outside its range is moved to the nearer end.
-/

namespace Storyboard

/-- How much the program tells about its work. -/
inductive LogLevel where
  | debug | info | warning | error | critical
  deriving DecidableEq, Repr

namespace LogLevel

def name : LogLevel → String
  | debug => "DEBUG"
  | info => "INFO"
  | warning => "WARNING"
  | error => "ERROR"
  | critical => "CRITICAL"

def severity : LogLevel → Nat
  | debug => 10
  | info => 20
  | warning => 30
  | error => 40
  | critical => 50

def inventory : List LogLevel := [debug, info, warning, error, critical]

end LogLevel

/-- The texts of the settings that are given, by name. -/
abbrev Surroundings := String → Option String

/-- What the program works by. -/
structure Settings (α : Type) where
  artboardWidth : Int
  artboardHeight : Int
  duration : α
  maxPromptChars : Int
  logLevel : LogLevel

namespace Settings

variable {α : Type} [Scalar α]

/-- The text of a setting without blanks at its ends; absent and blank settings are empty. -/
def given (env : Surroundings) (name : String) : List Char :=
  Text.trimBy Text.isBlank ((env name).getD "").toList

def wholeNumber (env : Surroundings) (name : String) (fallback low high : Int) : Int :=
  match Text.integerOf? Fault.digitLimit (given env name) with
  | some n => max low (min high n)
  | none => fallback

def scalar (env : Surroundings) (name : String) (fallback low high : α) : α :=
  match given env name with
  | [] => fallback
  | cs =>
    match Text.scalarOf? Text.liberalStyle cs with
    | some x => Scalar.clamp x low high
    | none => fallback

def level (env : Surroundings) (name : String) : LogLevel :=
  let word := String.ofList ((given env name).flatMap Text.capital)
  (LogLevel.inventory.find? fun l => l.name = word).getD .info

/-- The names of the settings. -/
def names : List String := [
  "DEFAULT_ARTBOARD_WIDTH", "DEFAULT_ARTBOARD_HEIGHT", "DEFAULT_DURATION_S", "MAX_PROMPT_CHARS",
  "LOG_LEVEL"]

/-- The environment variable of a setting. -/
def environmentName (name : String) : String := "MAESTRO_" ++ name

/-- The settings that the surroundings give. -/
def read (env : Surroundings) : Settings α where
  artboardWidth := wholeNumber env "DEFAULT_ARTBOARD_WIDTH" 800 16 16384
  artboardHeight := wholeNumber env "DEFAULT_ARTBOARD_HEIGHT" 600 16 16384
  duration := scalar env "DEFAULT_DURATION_S" 4.0 0.5 600.0
  maxPromptChars := wholeNumber env "MAX_PROMPT_CHARS" 4000 16 100000
  logLevel := level env "LOG_LEVEL"

end Settings

end Storyboard
