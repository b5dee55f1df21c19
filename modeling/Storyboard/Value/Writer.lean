import Storyboard.Value.Literal
/-!
# Writing values

The wire text of a value with one line for each item and field, in ASCII.
-/

namespace Storyboard.Value.Writer

variable {α : Type} [Scalar α]

/-- A character between double quotes; beyond ASCII by its UTF-16 units. -/
def escape (c : Char) : List Char :=
  let n := c.toNat
  match c with
  | '"' => ['\\', '"']
  | '\\' => ['\\', '\\']
  | '\n' => ['\\', 'n']
  | '\r' => ['\\', 'r']
  | '\t' => ['\\', 't']
  | '\x08' => ['\\', 'b']
  | '\x0c' => ['\\', 'f']
  | c =>
    if 32 ≤ n ∧ n < 127 then [c]
    else if n < 0x10000 then '\\' :: 'u' :: Text.hex 4 n
    else
      '\\' :: 'u' :: (Text.hex 4 (0xD800 + (n - 0x10000) / 0x400)
        ++ '\\' :: 'u' :: Text.hex 4 (0xDC00 + (n - 0x10000) % 0x400))

def quoted (s : String) : String := String.ofList ('"' :: (s.toList.flatMap escape ++ ['"']))

/-- A number, or the name of one that is not finite. -/
def number (x : α) : String :=
  if Scalar.isFinite x then Scalar.numeral x
  else if Scalar.isUndefined x then "NaN"
  else if x < 0.0 then "-Infinity"
  else "Infinity"

/-- The start of a line, two blanks deeper for each level. -/
def newline (depth : Nat) : String := "\n" ++ String.ofList (List.replicate (2 * depth) ' ')

/-- Some lines between brackets; without lines the brackets stand together. -/
def enclosed (left right : String) (depth : Nat) (lines : List String) : String :=
  if lines.isEmpty then left ++ right
  else left ++ newline (depth + 1) ++ ("," ++ newline (depth + 1)).intercalate lines
    ++ newline depth ++ right

mutual

/-- The wire text of a value that starts at some depth. -/
def write (depth : Nat) : Value α → String
  | .null => "null"
  | .bool b => if b then "true" else "false"
  | .int n => toString n
  | .real x => number x
  | .text s => quoted s
  | .list items => enclosed "[" "]" depth (writeItems (depth + 1) items)
  | .object fields => enclosed "\x7b" "\x7d" depth (writeFields (depth + 1) fields)

def writeItems (depth : Nat) : List (Value α) → List String
  | [] => []
  | v :: rest => write depth v :: writeItems depth rest

def writeFields (depth : Nat) : List (String × Value α) → List String
  | [] => []
  | (name, v) :: rest => (quoted name ++ ": " ++ write depth v) :: writeFields depth rest

end

end Storyboard.Value.Writer
