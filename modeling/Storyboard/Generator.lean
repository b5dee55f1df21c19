import Storyboard.Edit
import Storyboard.Figure.Motion
import Storyboard.Photo
import Storyboard.Scene
import Storyboard.Shape
/-!
# Generators

Everything that turns a plan into a draft, under one name each.
-/

namespace Storyboard

/-- A way to turn a plan into a draft. -/
inductive Generator where
  /-- The scene of the plan's archetype. -/
  | scene
  /-- The scene of a given archetype. -/
  | sceneOf (archetype : Archetype)
  | figure | rig | shape | photo | pan | layers | edit
  deriving DecidableEq, Repr

namespace Generator

def named : List (String × Generator) := [
  ("scene", scene), ("character", figure), ("rig", rig), ("path", shape), ("photo", photo),
  ("photo_tier1", pan), ("photo_tier2", layers), ("fallback", edit)]
    ++ Archetype.inventory.map fun a => ("scene:" ++ a.name, sceneOf a)

def ofName? (name : String) : Option Generator := (named.find? (·.1 = name)).map (·.2)

variable {α : Type} [Scalar α]

/-- The draft of a plan, numbered from the one after `n` on. Only scenes can be missing. -/
def draft? (g : Generator) (p : Plan α) (n : Nat) : Except Fault (Option (Draft α)) :=
  match g with
  | scene => .ok (Scene.build? p n)
  | sceneOf a => .ok ((Scene.builder? a).map fun make => make p n)
  | figure => .ok (some (Rig.animated p n))
  | rig => .ok (some (Rig.draft p n))
  | shape => .ok (some (Shape.build p n))
  | photo => .ok (some (Photo.build p n))
  | pan => .ok (some (Photo.pan p n))
  | layers => .ok (some (Photo.layers p n))
  | edit => (Edit.build p n).map some

/-- The draft of a plan, all of whose numbers have to be writable. A fault comes with the last
number given out before it. -/
def supplied (g : Generator) (p : Plan α) (n : Nat) : Except (Fault × Nat) (Option (Draft α)) :=
  match g.draft? p n with
  | .error fault => .error (fault, n)
  | .ok none => .ok none
  | .ok (some d) => (Placeholder.supply n d.issued).map fun _ => some d

def run (g : Generator) (p : Plan α) (n : Nat) : Except Fault (Option (Draft α)) :=
  (g.supplied p n).mapError (·.1)

/-- A generator gives out its draft unless it cannot write the last number. -/
theorem run_of_draft? {g : Generator} {p : Plan α} {n count : Nat} {d : Draft α}
    (h : g.draft? p n = .ok (some d)) (hissued : d.issued = n + count) :
    g.run p n = if 0 < count → n + count < Placeholder.ceiling then .ok (some d)
      else .error (.tooManyDigits none) := by
  unfold run supplied Placeholder.supply
  rw [h]
  dsimp only
  rw [hissued]
  by_cases hroom : 0 < count → n + count < Placeholder.ceiling
  · rw [if_pos hroom, if_neg (by omega)]
    rfl
  · rw [if_neg hroom, if_pos (by omega)]
    rfl

end Generator

end Storyboard
