import Storyboard.Curve
import Storyboard.Draft
import Storyboard.Plan
/-!
# Rigs

A figure is a group on the artboard with its parts laid out around the group's origin. Robots and
stick figures have limbs that swing; blobs have a face.
-/

namespace Storyboard

/-- The parts of a figure that swing. -/
inductive Limb where
  | armLeft | armRight | legLeft | legRight
  deriving DecidableEq, Repr

/-- What a motion needs to know of a figure: its group, where that stands, and its limbs. -/
structure Rig (α : Type) where
  group : String
  x : α
  y : α
  limb : Limb → Option String

/-- How a figure is built. -/
inductive Build where
  | robot | blob | stick
  deriving DecidableEq, Repr

namespace Limb

def partName : Limb → String
  | armLeft => "arm_l"
  | armRight => "arm_r"
  | legLeft => "leg_l"
  | legRight => "leg_r"

end Limb

namespace Rig

open Storyboard.Action

variable {α : Type} [Scalar α]

/-- The rig that named parts describe. A part without an id is no part, and a figure without a
place stands at the origin. -/
def ofParts (parts : Fields α) : Except Fault (Rig α) := do
  let place (name : String) : Except Fault α :=
    ((Fields.get? parts name).getD (.int 0)).toScalar
  let id? (name : String) : Option String :=
    ((Fields.get? parts name).bind Value.text?).filter (· ≠ "")
  let x ← place "base_x"
  let y ← place "base_y"
  return { group := (id? "group").getD "", x, y, limb := fun l => id? l.partName }

def buildOf (p : Plan α) : Build :=
  if p.mentions .robot then .robot
  else if p.mentions .blob then .blob
  else .stick

/-- The id of the `k`-th element of a figure that starts after `n`. -/
def ref (n k : Nat) : String := Placeholder.id (n + k)

/-- The rig of a plan's figure, numbered from the one after `n` on. -/
def ofPlan (p : Plan α) (n : Nat) : Rig α where
  group := ref n 1
  x := p.width * 0.5
  y := p.height * 0.65
  limb l :=
    if buildOf p = .blob then none
    else some (ref n (match l with
      | .armLeft => 4
      | .armRight => 5
      | .legLeft => 6
      | .legRight => 7))

def eyeColour : String := "#0f172a"

/-- The shapes of a figure, less its group. -/
def shapes (p : Plan α) (n : Nat) : List (Action α) :=
  let light := p.colour 0 "#e2e8f0"
  let mid := p.colour 1 "#94a3b8"
  let dark := p.colour 2 "#64748b"
  match buildOf p with
  | .blob => [
      path (ref n 2) 0.0 0.0 (Curve.render (Curve.blob (70.0 : α) 7)) mid,
      circle (ref n 3) 0.0 (-10.0) 22.0 light,
      circle (ref n 4) (-8.0) (-12.0) 4.0 (.text eyeColour),
      circle (ref n 5) 8.0 (-12.0) 4.0 (.text eyeColour)]
  | .robot => [
      rect (ref n 2) (-18.0) (-110.0) 36.0 30.0 light,
      rect (ref n 3) (-20.0) (-80.0) 40.0 55.0 mid,
      rect (ref n 4) (-46.0) (-70.0) 26.0 8.0 dark,
      rect (ref n 5) 20.0 (-70.0) 26.0 8.0 dark,
      rect (ref n 6) (-18.0) (-25.0) 12.0 34.0 dark,
      rect (ref n 7) 6.0 (-25.0) 12.0 34.0 dark]
  | .stick => [
      circle (ref n 2) 0.0 (-90.0) 18.0 light,
      rect (ref n 3) (-8.0) (-70.0) 16.0 42.0 mid,
      rect (ref n 4) (-28.0) (-62.0) 16.0 6.0 mid,
      rect (ref n 5) 12.0 (-62.0) 16.0 6.0 mid,
      rect (ref n 6) (-10.0) (-30.0) 8.0 32.0 dark,
      rect (ref n 7) 2.0 (-30.0) 8.0 32.0 dark]

/-- The names of the shapes, in the same order. -/
def partNames : Build → List String
  | .blob => ["body", "face", "eye_l", "eye_r"]
  | _ => ["head", "torso", "arm_l", "arm_r", "leg_l", "leg_r"]

def summary : Build → String
  | .blob => "Built a blob character rig."
  | .robot => "Built a robot character rig."
  | .stick => "Built a stick figure character rig."

/-- The figure of a plan, standing still. -/
def draft (p : Plan α) (n : Nat) : Draft α :=
  let rig := ofPlan p n
  let names := partNames (buildOf p)
  { summary := summary (buildOf p)
    actions := Action.group rig.group rig.x rig.y :: (shapes p n).map (under rig.group)
    root := some rig.group
    title := "Character: Rig + Motion"
    parts := [("group", .text rig.group), ("base_x", .real rig.x), ("base_y", .real rig.y)]
      ++ names.zipIdx.map fun (name, k) => (name, .text (ref n (k + 2)))
    issued := n + 1 + names.length }

end Rig

end Storyboard
