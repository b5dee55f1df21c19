import Storyboard.Value.Literal
import Storyboard.Text.Numeral
/-!
# Values read as numbers

The scalar that a value stands for where a number is expected, the test for numbers that can be
compared and clamped, and the test for values that can be written.
-/

namespace Storyboard.Value

variable {α : Type} [Scalar α]

/-- The scalar nearest to an integer, which has to be finite. -/
def scalarOfInt (n : Int) : Except Fault α :=
  let x : α := Scalar.ofInt n
  if Scalar.isFinite x then .ok x else .error .integerTooLarge

/-- The scalar a value stands for: a number, a truth value as one or zero, or a numeral. -/
def toScalar : Value α → Except Fault α
  | bool b => .ok (if b then 1.0 else 0.0)
  | int n => scalarOfInt n
  | real x => .ok x
  | text s =>
    match Text.scalarOf? Text.liberalStyle (Text.trimBy Text.isSpace s.toList) with
    | some x => .ok x
    | none => .error (.notANumeral (Text.quote s))
  | value => .error (.notANumber value.kind)

/-- The scalar of a finite number; anything else, truth values included, has none. An integer
beyond all scalars is a fault. -/
def finite? : Value α → Except Fault (Option α)
  | int n => (scalarOfInt n).map some
  | real x => .ok (if Scalar.isFinite x then some x else none)
  | _ => .ok none

mutual

/-- Every number in a value is finite. -/
def isFinite : Value α → Bool
  | real x => Scalar.isFinite x
  | list items => areFinite items
  | object fields => haveFinite fields
  | _ => true

def areFinite : List (Value α) → Bool
  | [] => true
  | v :: rest => isFinite v && areFinite rest

def haveFinite : List (String × Value α) → Bool
  | [] => true
  | (_, v) :: rest => isFinite v && haveFinite rest

end

end Storyboard.Value
