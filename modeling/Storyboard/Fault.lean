import Storyboard.Value
/-!
# Faults

The ways in which an operation on values can fail, and their wording.
-/

namespace Storyboard

/-- Why an operation gives no answer. -/
inductive Fault where
  /-- A list or an object was looked up in a set. -/
  | notHashable (kind : Kind)
  /-- A whole number has no finite scalar near it. -/
  | integerTooLarge
  /-- A square left the range of scalars. -/
  | squareTooLarge
  /-- A numeral with more digits than integers are read from or, without a count, written with. -/
  | tooManyDigits (count : Option Nat)
  | notANumeral (quoted : String)
  | notANumber (kind : Kind)
  | noSuchIndex
  | noSuchPlace
  | missingPart (name : String)
  | notIterable (kind : Kind)
  | notAPair (index : Nat)
  | wrongPairLength (index length : Nat)
  | unknownName (what quoted : String)
  /-- An infinite or undefined number has no wire form. -/
  | unwritable
  /-- Nothing to take a share of. -/
  | noCases
  deriving DecidableEq

namespace Kind

/-- The name of a kind in messages. -/
def name : Kind → String
  | null => "NoneType"
  | bool => "bool"
  | int => "int"
  | real => "float"
  | text => "str"
  | list => "list"
  | object => "dict"

end Kind

namespace Fault

/-- The longest numeral that is read as an integer, or that an integer is written with. -/
def digitLimit : Nat := 4300

/-- The wording of a fault. -/
def message : Fault → String
  | notHashable kind => "unhashable type: '" ++ kind.name ++ "'"
  | integerTooLarge => "int too large to convert to float"
  | squareTooLarge => "(34, 'Numerical result out of range')"
  | tooManyDigits count =>
    "Exceeds the limit (4300 digits) for integer string conversion"
      ++ (match count with
        | some n => ": value has " ++ toString n ++ " digits"
        | none => "")
      ++ "; use sys.set_int_max_str_digits() to increase the limit"
  | notANumeral quoted => "could not convert string to float: " ++ quoted
  | notANumber kind =>
    "float() argument must be a string or a real number, not '" ++ kind.name ++ "'"
  | noSuchIndex => "list index out of range"
  | noSuchPlace => "list assignment index out of range"
  | missingPart name => "'" ++ name ++ "'"
  | notIterable kind => "'" ++ kind.name ++ "' object is not iterable"
  | notAPair index =>
    "cannot convert dictionary update sequence element #" ++ toString index ++ " to a sequence"
  | wrongPairLength index length =>
    "dictionary update sequence element #" ++ toString index ++ " has length " ++ toString length
      ++ "; 2 is required"
  | unknownName what quoted => quoted ++ " is not a valid " ++ what
  | unwritable => "Out of range float values are not JSON compliant"
  | noCases => "division by zero"

end Fault

end Storyboard
