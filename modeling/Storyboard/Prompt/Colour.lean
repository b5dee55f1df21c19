import Storyboard.Text.Phrase
/-!
# Colours in a prompt

Hexadecimal codes and colour names. Codes come first wherever a prompt has both.
-/

namespace Storyboard.Colour

/-- The colour names and their codes, in order of preference. -/
def named : List (String × String) := [
  ("red", "#ef4444"), ("blue", "#3b82f6"), ("green", "#22c55e"), ("yellow", "#facc15"),
  ("orange", "#f97316"), ("purple", "#a855f7"), ("pink", "#ec4899"), ("teal", "#14b8a6"),
  ("cyan", "#06b6d4"), ("indigo", "#6366f1"), ("slate", "#64748b"), ("gray", "#9ca3af"),
  ("brown", "#92400e"), ("beige", "#f5f5dc"), ("cream", "#fff7d6"), ("navy", "#0f172a"),
  ("magenta", "#d946ef"), ("gold", "#f59e0b"), ("silver", "#cbd5f5"), ("black", "#0f172a"),
  ("white", "#f8fafc")]

/-- Keeps the first of equal entries. -/
def distinct : List String → List String
  | [] => []
  | c :: rest => c :: (distinct rest).filter (· ≠ c)

def isHexDigit (c : Char) : Bool :=
  c.isDigit || ('a' ≤ c && c ≤ 'f') || ('A' ≤ c && c ≤ 'F')

/-- The digits of a code at the start of a text: three to eight of them, and the end of a word. -/
def codeAt? : List Char → Option (List Char)
  | '#' :: rest =>
    let digits := rest.takeWhile isHexDigit
    if 3 ≤ digits.length ∧ digits.length ≤ 8 ∧ Text.endsWord (rest.drop digits.length) then
      some digits
    else none
  | _ => none

/-- The codes of a text as they are written, in order. -/
def codes : List Char → List String
  | [] => []
  | c :: rest =>
    match codeAt? (c :: rest) with
    | some digits => String.ofList ('#' :: digits) :: codes rest
    | none => codes rest

def lowerCode (code : String) : String := String.ofList (code.toList.map Char.toLower)

/-- The different codes of a text in small letters, in order of first occurrence. -/
def hexIn (text : String) : List String := distinct ((codes text.toList).map lowerCode)

/-- The different codes of the colours that a text names, in order of preference. -/
def namedIn (text : String) : List String :=
  distinct ((named.filter fun (name, _) => Text.mentions text.toList name.toList).map (·.2))

/-- The colour of a text: its first code as it is written, or else its most preferred name. -/
def of? (text : String) : Option String :=
  match codes text.toList with
  | code :: _ => some code
  | [] => (namedIn text).head?

end Storyboard.Colour
