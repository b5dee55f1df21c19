import Storyboard.Action
import Storyboard.Prompt.Features
/-!
# Animations

The motion words of a prompt, and the keyframes that they give a single element.
-/

namespace Storyboard

/-- The motions that an element is given. -/
structure Animation where
  move : Bool
  bounce : Bool
  spin : Bool
  pulse : Bool
  fade : Bool
  deriving DecidableEq, Repr

namespace Animation

open Storyboard.Action (key)

def any (a : Animation) : Bool := a.move || a.bounce || a.spin || a.pulse || a.fade

variable {α : Type}

/-- The motions of a prompt. Direction words count as motion where `steered` says so; a prompt
that only asks for some animation gets a pulse. -/
def ofFeatures (f : Features α) (steered : Bool := true) : Animation :=
  let move := f.mentions .move || (steered && f.hasDirection)
  let specific := move || f.any [.bounce, .spin, .pulse, .fade]
  { move
    bounce := f.mentions .bounce
    spin := f.mentions .spin
    pulse := f.mentions .pulse || (f.mentions .animate && !specific)
    fade := f.mentions .fade }

variable [Scalar α]

/-- How far a direction word moves an element. -/
def reach : α := 120.0

/-- A move to a known place, or by a step in the direction of the prompt, to the right when it
names none. -/
def moving (id : String) (d : α) (f : Features α) (base : α × α) (goal : Option (α × α)) :
    List (Action α) :=
  match goal with
  | some (x, y) => [
      key id "x" 0.0 base.1, key id "x" d x,
      key id "y" 0.0 base.2, key id "y" d y]
  | none =>
    let dx : α := if f.mentions .left then -reach else reach
    [key id "x" 0.0 base.1, key id "x" d (base.1 + dx)]
      ++ (if f.mentions .up then [key id "y" 0.0 base.2, key id "y" d (base.2 + -reach)]
        else if f.mentions .down then [key id "y" 0.0 base.2, key id "y" d (base.2 + reach)]
        else [])

/-- The keyframes of an element that stands at `base`. -/
def keyframes (a : Animation) (id : String) (d : α) (f : Features α) (base : α × α)
    (goal : Option (α × α) := none) : List (Action α) :=
  (if a.move then moving id d f base goal else [])
    ++ (if a.bounce then [
      key id "y" 0.0 base.2,
      key id "y" (d * 0.5) (base.2 - 80.0) "ease-out",
      key id "y" d base.2 "ease-in"] else [])
    ++ (if a.spin then [key id "rotation" 0.0 0.0, key id "rotation" d 360.0] else [])
    ++ (if a.pulse then [
      key id "scale" 0.0 1.0, key id "scale" (d * 0.5) 1.15, key id "scale" d 1.0] else [])
    ++ (if a.fade then [key id "opacity" 0.0 1.0, key id "opacity" d 0.0] else [])

end Animation

end Storyboard
