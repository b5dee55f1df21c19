import Storyboard.Decimal.Shortest
/-!
# Scalars

The numbers that lengths, times and opacities are made of. Scenes are built over any scalar, so
that the definitions that run on binary floating point can also be read in exact arithmetic.
-/

namespace Storyboard

/-- Arithmetic, comparison and the exact value of each finite number. -/
class Scalar (α : Type) extends
    Add α, Sub α, Mul α, Div α, Neg α, OfScientific α, LT α, LE α where
  decLt : DecidableLT α
  decLe : DecidableLE α
  /-- The number nearest to an integer. -/
  ofInt : Int → α
  /-- The number nearest to `± digits * 10 ^ exponent`. -/
  ofDecimal : Bool → Nat → Int → α
  /-- The exact value; infinities and undefined results have none. -/
  toRat? : α → Option Rat
  square : α → α
  sin : α → α
  cos : α → α
  /-- The shortest numeral that reads back to a finite number. -/
  numeral : α → String

namespace Scalar

variable {α : Type} [Scalar α]

instance (a b : α) : Decidable (a < b) := decLt a b
instance (a b : α) : Decidable (a ≤ b) := decLe a b

def ofNat (n : Nat) : α := ofInt n

def isFinite (x : α) : Bool := (toRat? x).isSome

/-- Only an undefined result is not even equal to itself. -/
def isUndefined (x : α) : Bool := !(decide (x ≤ x))

def isZero (x : α) : Bool := decide (x ≤ 0.0) && decide ((0.0 : α) ≤ x)

/-- The larger number; the first unless the second is plainly larger. -/
def max (a b : α) : α := if a < b then b else a

/-- The smaller number; the first unless the second is plainly smaller. -/
def min (a b : α) : α := if b < a then b else a

/-- The number moved into a range, the lower end winning. -/
def clamp (x low high : α) : α := max low (min high x)

def infinite : α := 1.0 / 0.0
def undefined : α := 0.0 / 0.0

/-- The text of a number, with names for those that have no numeral. -/
def text (x : α) : String :=
  if isFinite x then numeral x
  else if isUndefined x then "nan"
  else if x < 0.0 then "-inf"
  else "inf"

end Scalar

/-- The parts of a finite binary64 number: sign, significand and power of two. -/
def binaryParts? (x : Float) : Option (Bool × Nat × Int) :=
  let bits : Nat := x.toBits.toNat
  let fraction : Nat := bits % Nat.pow 2 52
  let biased : Nat := bits / Nat.pow 2 52 % Nat.pow 2 11
  let negative := bits / Nat.pow 2 63 == 1
  if biased = 2047 then none
  else if biased = 0 then some (negative, fraction, -1074)
  else some (negative, Nat.pow 2 52 + fraction, (biased : Int) - 1075)

/-- The exact value of `± digits * base ^ exponent`. -/
def scaled (negative : Bool) (base digits : Nat) (exponent : Int) : Rat :=
  let size : Rat :=
    if 0 ≤ exponent then ((digits * Nat.pow base exponent.toNat : Nat) : Rat)
    else mkRat digits (Nat.pow base (-exponent).toNat)
  if negative then -size else size

/-- The exact value of a finite binary64 number. -/
def binaryValue? (x : Float) : Option Rat :=
  (binaryParts? x).map fun (negative, significand, exponent) =>
    scaled negative 2 significand exponent

/-- The shortest numeral of a finite binary64 number. -/
def binaryNumeral (x : Float) : String :=
  match binaryParts? x with
  | none => ""
  | some (negative, significand, exponent) =>
    let sign := if negative then "-" else ""
    if significand = 0 then sign ++ "0.0"
    else
      let basin : Decimal.Basin :=
        ⟨significand, exponent, significand == Nat.pow 2 52 && exponent != -1074⟩
      let (digits, power) := basin.shortest
      sign ++ Decimal.layOut digits power

/-- A decimal as binary64. Powers of ten far outside the range are settled by size alone. -/
def binaryOfDecimal (negative : Bool) (digits : Nat) (exponent : Int) : Float :=
  let point := ((Decimal.digits digits).length : Int) + exponent
  let size : Float :=
    if digits = 0 then 0.0
    else if 400 < point then 1.0 / 0.0
    else if point < -400 then 0.0
    else if 0 ≤ exponent then Float.ofScientific digits false exponent.toNat
    else Float.ofScientific digits true (-exponent).toNat
  if negative then -size else size

instance : Scalar Float where
  decLt := inferInstance
  decLe := inferInstance
  ofInt := Float.ofInt
  ofDecimal := binaryOfDecimal
  toRat? := binaryValue?
  square x := Float.pow x 2.0
  sin := Float.sin
  cos := Float.cos
  numeral := binaryNumeral

end Storyboard
