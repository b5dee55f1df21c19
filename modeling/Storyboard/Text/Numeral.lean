import Storyboard.Scalar
import Storyboard.Text.Character
/-!
# Numerals

Numbers read from whole texts: an optional sign, digits with an optional fraction and exponent,
or a name for an infinite or undefined number.
-/

namespace Storyboard.Text

/-- Which digits a numeral is made of, and whether underscores may stand between them. -/
structure NumeralStyle where
  digit : Char → Option Nat
  grouped : Bool

def latinDigit (c : Char) : Option Nat := if c.isDigit then some (c.toNat - 48) else none

/-- Digits of every script, in groups. -/
def liberalStyle : NumeralStyle := ⟨digitValue?, true⟩

/-- The ten Latin digits, without groups. -/
def plainStyle : NumeralStyle := ⟨latinDigit, false⟩

namespace NumeralStyle

/-- The digits at the start of a text, and what follows them. An underscore is passed over
between two digits of a grouped numeral; `inside` says that a digit came just before. -/
def run (style : NumeralStyle) (inside : Bool) : List Char → List Nat × List Char
  | [] => ([], [])
  | c :: rest =>
    match style.digit c with
    | some d => let (ds, after) := run style true rest; (d :: ds, after)
    | none =>
      let joins := style.grouped && inside && c == '_'
        && ((rest.head?.bind style.digit).isSome)
      if joins then run style false rest else ([], c :: rest)

end NumeralStyle

/-- The number that a row of digits denotes. -/
def valueOf (ds : List Nat) : Nat := ds.foldl (fun n d => 10 * n + d) 0

/-- A sign, and what follows it. -/
def takeSign : List Char → Bool × List Char
  | '-' :: rest => (true, rest)
  | '+' :: rest => (false, rest)
  | cs => (false, cs)

/-- The exponent that ends a numeral; none is zero. -/
def exponent? (style : NumeralStyle) : List Char → Option Int
  | [] => some 0
  | c :: rest =>
    if c == 'e' || c == 'E' then
      let (negative, rest) := takeSign rest
      match style.run false rest with
      | (d :: ds, []) => some (if negative then -(valueOf (d :: ds) : Int) else valueOf (d :: ds))
      | _ => none
    else none

variable {α : Type} [Scalar α]

/-- The scalar that a whole text denotes. -/
def scalarOf? (style : NumeralStyle) (cs : List Char) : Option α :=
  let (negative, body) := takeSign cs
  let word := String.ofList (body.map Char.toLower)
  if word = "inf" ∨ word = "infinity" then
    some (if negative then -Scalar.infinite else Scalar.infinite)
  else if word = "nan" then some Scalar.undefined
  else
    let (whole, rest) := style.run false body
    let (fraction, rest) := match rest with
      | '.' :: rest => style.run false rest
      | rest => ([], rest)
    if whole.isEmpty && fraction.isEmpty then none
    else
      (exponent? style rest).map fun power =>
        Scalar.ofDecimal negative (valueOf (whole ++ fraction)) (power - fraction.length)

/-- The integer that a whole text denotes, unless it has more digits than `limit`. -/
def integerOf? (limit : Nat) (cs : List Char) : Option Int :=
  let (negative, body) := takeSign cs
  match liberalStyle.run false body with
  | (d :: ds, []) =>
    if (d :: ds).length ≤ limit then
      some (if negative then -(valueOf (d :: ds) : Int) else valueOf (d :: ds))
    else none
  | _ => none

/-- A text without the underscores between its characters, when it has any and none is double
or at an end. -/
def withoutGroups? (cs : List Char) : Option (List Char) :=
  let lone := (cs.zip (cs.drop 1)).all fun (a, b) => !(a == '_' && b == '_')
  if cs.contains '_' && lone && cs.head? != some '_' && cs.getLast? != some '_' then
    some (cs.filter (· != '_'))
  else none

end Storyboard.Text
