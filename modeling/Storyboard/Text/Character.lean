import Storyboard.Text.Ranges
/-!
# Character classes and letter case

Word characters, blanks, decimal digits and printable characters, and the small and capital
forms of a text. Every class has a direct answer on ASCII and a table beyond it.
-/

namespace Storyboard.Text

/-- The number of entries of an ascending table that are at most `n`, between two indices. -/
def countUpTo (table : Array Nat) (n low high : Nat) : Nat :=
  if low < high then
    let middle := (low + high) / 2
    if table[middle]?.getD 0 ≤ n then countUpTo table n (middle + 1) high
    else countUpTo table n low middle
  else low
termination_by high - low

/-- Membership in the class that a table of bounds describes. -/
def inBounds (table : Array Nat) (c : Char) : Bool :=
  countUpTo table c.toNat 0 table.size % 2 == 1

/-- Letters, numbers and the underscore. -/
def isWord (c : Char) : Bool :=
  if c.toNat < 128 then c.isAlphanum || c == '_' else inBounds wordBounds c

/-- White space, and the information separators. -/
def isBlank (c : Char) : Bool :=
  if c.toNat < 128 then (9 ≤ c.toNat && c.toNat ≤ 13) || (28 ≤ c.toNat && c.toNat ≤ 32)
  else inBounds blankBounds c

/-- White space proper: a blank that is no information separator. -/
def isSpace (c : Char) : Bool :=
  isBlank c && !(28 ≤ c.toNat && c.toNat ≤ 31)

/-- Characters that can be shown as they are. -/
def isPrintable (c : Char) : Bool :=
  if c.toNat < 128 then 32 ≤ c.toNat && c.toNat < 127 else inBounds printableBounds c

/-- The value of a decimal digit of any script. -/
def digitValue? (c : Char) : Option Nat :=
  if c.toNat < 128 then if c.isDigit then some (c.toNat - 48) else none
  else
    let base := digitZeros[countUpTo digitZeros c.toNat 0 digitZeros.size - 1]?.getD 0
    if base ≤ c.toNat ∧ c.toNat < base + 10 then some (c.toNat - base) else none

/-- Decimal digits of every script. -/
def isDigit (c : Char) : Bool := (digitValue? c).isSome

/-- The number of runs that start at or before a code point, between two indices. -/
def countRunsUpTo (table : Array (Nat × Nat × Nat × Nat)) (n low high : Nat) : Nat :=
  if low < high then
    let middle := (low + high) / 2
    if (table[middle]?.getD (0, 0, 1, 0)).1 ≤ n then countRunsUpTo table n (middle + 1) high
    else countRunsUpTo table n low middle
  else low
termination_by high - low

/-- The small form of a character, when it is a single character. -/
def lowerChar (c : Char) : Char :=
  if c.toNat < 128 then c.toLower
  else
    match lowerRuns[countRunsUpTo lowerRuns c.toNat 0 lowerRuns.size - 1]? with
    | some (first, last, stride, image) =>
      if first ≤ c.toNat ∧ c.toNat ≤ last ∧ (c.toNat - first) % stride = 0 then
        Char.ofNat (image + (c.toNat - first))
      else c
    | none => c

def isCased (c : Char) : Bool := inBounds casedBounds c
def isCaseIgnorable (c : Char) : Bool := inBounds caseIgnorableBounds c

/-- A cased character comes first once the ignorable ones are skipped. -/
def reachesCased (cs : List Char) : Bool :=
  ((cs.dropWhile isCaseIgnorable).head?.map isCased).getD false

/-- Small forms from left to right; `before` holds what was read, last character first. A
capital sigma that ends a word becomes the final sigma, and the dotted capital I leaves its dot
behind as a combining mark. -/
def lowerFrom (before : List Char) : List Char → List Char
  | [] => []
  | c :: rest =>
    let image :=
      if c == 'Σ' then
        if reachesCased before && !reachesCased rest then ['ς'] else ['σ']
      else if c == 'İ' then ['i', Char.ofNat 0x307]
      else [lowerChar c]
    image ++ lowerFrom (c :: before) rest

/-- The text in small letters. -/
def lower (s : String) : String := String.ofList (lowerFrom [] s.toList)

/-- Drops the characters of a class from both ends. -/
def trimBy (p : Char → Bool) (cs : List Char) : List Char :=
  ((cs.dropWhile p).reverse.dropWhile p).reverse

/-- The text without blanks at its ends. -/
def trim (s : String) : String := String.ofList (trimBy isBlank s.toList)

/-- Capital forms, exact where they are ASCII. -/
def capital (c : Char) : List Char :=
  match c with
  | 'ß' => ['S', 'S']
  | 'ı' => ['I']
  | 'ſ' => ['S']
  | 'ﬀ' => ['F', 'F']
  | 'ﬁ' => ['F', 'I']
  | 'ﬂ' => ['F', 'L']
  | 'ﬃ' => ['F', 'F', 'I']
  | 'ﬄ' => ['F', 'F', 'L']
  | 'ﬅ' | 'ﬆ' => ['S', 'T']
  | c => [c.toUpper]

/-- The ASCII letter that a case-blind search takes a character for. -/
def fold (c : Char) : Char :=
  match c with
  | 'ſ' => 's'
  | '\u212a' => 'k'
  | 'ı' | 'İ' => 'i'
  | c => c.toLower

end Storyboard.Text
