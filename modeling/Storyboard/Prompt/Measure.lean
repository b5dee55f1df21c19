import Storyboard.Fault
import Storyboard.Text.Numeral
import Storyboard.Text.Phrase
/-!
# Quantities in a prompt

Opacity, counts and measures such as `radius 40` or `3 seconds`, each found by its own phrase.
All readings take the prompt in small letters and without blanks at its ends.
-/

namespace Storyboard.Measure

open Text (search after? isDigit isWord isBlank endsWord digitValue?)

/-- A numeral of a prompt: digits of any script, and those after a point. -/
structure Quantity where
  whole : List Char
  fraction : List Char

/-- The number that a row of digits denotes. -/
def digitsValue (ds : List Char) : Nat := Text.valueOf (ds.filterMap digitValue?)

variable {α : Type} [Scalar α]

def Quantity.value (q : Quantity) : α :=
  Scalar.ofDecimal false (digitsValue (q.whole ++ q.fraction)) (-(q.fraction.length : Int))

/-- The longest numeral at the start of a text, and what follows it. -/
def quantityAt? (cs : List Char) : Option (Quantity × List Char) :=
  match cs.takeWhile isDigit, cs.dropWhile isDigit with
  | [], _ => none
  | whole, '.' :: rest =>
    match rest.takeWhile isDigit, rest.dropWhile isDigit with
    | [], _ => some (⟨whole, []⟩, '.' :: rest)
    | fraction, rest => some (⟨whole, fraction⟩, rest)
  | whole, rest => some (⟨whole, []⟩, rest)

/-- A numeral that ends where a word ends; its fraction is given up if only that helps. -/
def closedQuantity? (cs : List Char) : Option Quantity :=
  match quantityAt? cs with
  | none => none
  | some (q, rest) =>
    if endsWord rest then some q
    else if q.fraction.isEmpty then none
    else some ⟨q.whole, []⟩

/-- Words with optional blanks between them, at the start of a text. -/
def afterWords? : List String → List Char → Option (List Char)
  | [], cs => some cs
  | [word], cs => after? word.toList cs
  | word :: words, cs => (after? word.toList cs).bind fun rest =>
      afterWords? words (rest.dropWhile isBlank)

/-- A measure is announced by one of several labels, each a row of words. -/
abbrev Labels := List (List String)

/-- The numeral that follows a label at this place. -/
def labelledAt (labels : Labels) (inside : Bool) (cs : List Char) : Option Quantity :=
  if inside then none
  else labels.findSome? fun label =>
    (afterWords? label cs).bind fun rest => closedQuantity? (rest.dropWhile isBlank)

/-- The first numeral that follows one of the labels. -/
def labelled? (labels : Labels) (cs : List Char) : Option Quantity :=
  search (labelledAt labels) false cs

/-- A numeral at the start of a word that is followed by one of several unit words. -/
def countedAt (units : List String) (spaced : Bool) (inside : Bool) (cs : List Char) :
    Option Quantity :=
  if inside then none
  else (quantityAt? cs).bind fun (q, rest) =>
    let rest := if spaced then rest.dropWhile isBlank else rest
    if units.any fun unit => ((after? unit.toList rest).map endsWord).getD false then some q
    else none

def counted? (units : List String) (spaced : Bool) (cs : List Char) : Option Quantity :=
  search (countedAt units spaced) false cs

def strokeWidth? (cs : List Char) : Option α :=
  (labelled? [["stroke"], ["outline"], ["border"]] cs).map Quantity.value

def fontSize? (cs : List Char) : Option α :=
  (labelled? [["font", "size"], ["size"]] cs).map Quantity.value

def duration? (cs : List Char) : Option α :=
  ((labelled? [["duration"], ["length"]] cs).or
    (counted? ["s", "sec", "secs", "seconds"] true cs)).map Quantity.value

def playbackSpeed? (cs : List Char) : Option α :=
  ((labelled? [["speed"], ["playback"]] cs).or (counted? ["x"] false cs)).map Quantity.value

def radius? (cs : List Char) : Option α :=
  (labelled? [["radius"], ["r"]] cs).map Quantity.value

def width? (cs : List Char) : Option α := (labelled? [["width"]] cs).map Quantity.value
def height? (cs : List Char) : Option α := (labelled? [["height"]] cs).map Quantity.value
def square? (cs : List Char) : Option α := (labelled? [["square"]] cs).map Quantity.value

/-! ### Opacity -/

/-- Up to three digits that end a row of digits before a percent sign. -/
def percentAt (cs : List Char) : Option Nat :=
  let digits := cs.takeWhile isDigit
  match (cs.dropWhile isDigit).dropWhile isBlank with
  | '%' :: _ =>
    if 1 ≤ digits.length ∧ digits.length ≤ 3 then some (digitsValue digits) else none
  | _ => none

def percent? (cs : List Char) : Option Nat := search (fun _ cs => percentAt cs) false cs

/-- The number after the word opacity, which may start with its point. -/
def opacityAt (cs : List Char) : Option Quantity :=
  (after? "opacity".toList cs).bind fun rest =>
    let rest := rest.dropWhile isBlank
    let whole := rest.takeWhile Char.isDigit
    match rest.dropWhile Char.isDigit with
    | '.' :: after =>
      let fraction := after.takeWhile Char.isDigit
      if whole.isEmpty && fraction.isEmpty then none else some ⟨whole, fraction⟩
    | _ => if whole.isEmpty then none else some ⟨whole, []⟩

/-- A word occurs in a text as it is written. -/
def holdsWord (word : String) (cs : List Char) : Bool :=
  (search (fun inside cs =>
    if !inside && ((after? word.toList cs).map endsWord).getD false then some () else none)
    false cs).isSome

/-- The opacity that a prompt asks for: the word transparent, a percentage, or a number after
the word opacity, which counts as a percentage when it is above one. -/
def opacity? (cs : List Char) : Option α :=
  if holdsWord "transparent" cs then some 0.2
  else
    match percent? cs with
    | some n => some (Scalar.clamp (Scalar.ofNat n) 0.0 100.0 / 100.0)
    | none =>
      (search (fun _ cs => opacityAt cs) false cs).map fun q =>
        let x : α := q.value
        let x := if (1.0 : α) < x then Scalar.clamp x 0.0 100.0 / 100.0 else x
        Scalar.clamp x 0.0 1.0

/-! ### Counts -/

/-- The most elements that one prompt creates. -/
def maxCount : Nat := 12

/-- The words for shapes that a number can stand before. -/
def shapeNouns : List String := ["circle", "rectangle", "square", "shape", "object", "item"]

/-- A row of digits followed by a noun for shapes. -/
def countAt (cs : List Char) : Option (List Char) :=
  match cs.takeWhile isDigit, (cs.dropWhile isDigit).dropWhile isBlank with
  | [], _ => none
  | digits, rest =>
    if shapeNouns.any fun noun => (after? noun.toList rest).isSome then some digits else none

/-- The words that stand for a number, in order of preference. -/
def numberWords : List (String × Nat) := [
  ("one", 1), ("two", 2), ("three", 3), ("four", 4), ("five", 5), ("six", 6), ("seven", 7),
  ("eight", 8), ("nine", 9), ("ten", 10), ("couple", 2), ("pair", 2), ("few", 3)]

/-- How many elements a prompt asks for, between one and `maxCount`: a number before a noun for
shapes, else a number word, else one. -/
def count (cs : List Char) : Except Fault Nat :=
  match search (fun _ cs => countAt cs) false cs with
  | some digits =>
    if Fault.digitLimit < digits.length then .error (.tooManyDigits (some digits.length))
    else .ok (max 1 (min maxCount (digitsValue digits)))
  | none =>
    match numberWords.find? fun (word, _) => Text.mentions cs word.toList with
    | some (_, n) => .ok (max 1 (min maxCount n))
    | none => .ok 1

end Storyboard.Measure
