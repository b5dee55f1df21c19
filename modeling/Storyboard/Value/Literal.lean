import Storyboard.Fault
import Storyboard.Text.Character
/-!
# Values as literals

The text of a value as a literal: texts in quotes with escapes, numbers as numerals, lists in
brackets and objects in braces.
-/

namespace Storyboard

namespace Text

def hexDigit (n : Nat) : Char := if n < 10 then Char.ofNat (48 + n) else Char.ofNat (87 + n)

/-- The lowest `width` hexadecimal digits of a number. -/
def hex (width n : Nat) : List Char :=
  (List.range width).reverse.map fun i => hexDigit (n / Nat.pow 16 i % 16)

/-- A character as it stands between quotes of one kind. -/
def escape (quote c : Char) : List Char :=
  if c == quote || c == '\\' then ['\\', c]
  else if c == '\n' then ['\\', 'n']
  else if c == '\r' then ['\\', 'r']
  else if c == '\t' then ['\\', 't']
  else if isPrintable c then [c]
  else if c.toNat < 0x100 then '\\' :: 'x' :: hex 2 c.toNat
  else if c.toNat < 0x10000 then '\\' :: 'u' :: hex 4 c.toNat
  else '\\' :: 'U' :: hex 8 c.toNat

/-- A text in single quotes, or in double quotes when it holds single quotes only. -/
def quote (s : String) : String :=
  let cs := s.toList
  let mark := if cs.contains '\'' && !cs.contains '"' then '"' else '\''
  String.ofList (mark :: (cs.flatMap (escape mark) ++ [mark]))

end Text

namespace Value

variable {α : Type} [Scalar α]

mutual

/-- A value as a literal. -/
def literal : Value α → String
  | null => "None"
  | bool b => if b then "True" else "False"
  | int n => toString n
  | real x => Scalar.text x
  | text s => Text.quote s
  | list items => "[" ++ ", ".intercalate (literalItems items) ++ "]"
  | object fields => "\x7b" ++ ", ".intercalate (literalFields fields) ++ "\x7d"

def literalItems : List (Value α) → List String
  | [] => []
  | item :: rest => literal item :: literalItems rest

def literalFields : List (String × Value α) → List String
  | [] => []
  | (name, value) :: rest => (Text.quote name ++ ": " ++ literal value) :: literalFields rest

end

/-- The text of a value: of a text itself, of anything else its literal. -/
def display : Value α → String
  | text s => s
  | value => value.literal

end Value

end Storyboard
