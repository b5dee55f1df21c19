import Storyboard.Draft
import Storyboard.Plan
/-!
# Camera and weather

Motion laid over finished scenes: a pan and zoom of an anchor, and a group of falling particles.
-/

namespace Storyboard

open Storyboard.Action (key)

variable {α : Type} [Scalar α]

namespace Camera

def panX (p : Plan α) : α :=
  if p.mentions .left then -30.0 else if p.mentions .right then 30.0 else 20.0

def panY (p : Plan α) : α :=
  if p.mentions .up then -20.0 else if p.mentions .down then 20.0 else 12.0

def zoom (p : Plan α) : α :=
  if p.mentions .zoom then 1.08 else if p.mentions .pan then 1.03 else 1.0

/-- The properties of an anchor that the camera moves. -/
def properties : List String := ["x", "y", "scale"]

/-- The keyframes of the camera on an anchor that stands at `origin`. -/
def motion (p : Plan α) (anchor : String) (origin : α × α) : List (Action α) :=
  let first := p.beats.intro.start
  let last := p.beats.settle.finish
  [key anchor "x" first origin.1,
    key anchor "x" last (origin.1 + panX p) "ease-in-out",
    key anchor "y" first origin.2,
    key anchor "y" last (origin.2 + panY p) "ease-in-out",
    key anchor "scale" first 1.0,
    key anchor "scale" last (zoom p) "ease-in-out"]

end Camera

namespace Weather

/-- How many particles fall. -/
def particles : Weather → Nat
  | rain => 16
  | snow => 14
  | none => 0

/-- A drop of rain, in the group. -/
def drop (p : Plan α) (group id : String) (index : Nat) : List (Action α) :=
  let (w, h) := (p.width, p.height)
  let x := w * 0.1 + Scalar.ofNat (index % 8) * (w * 0.1)
  let y := Scalar.ofNat (index % 2) * (h * 0.2)
  [(Action.rect id x y 2.0 (h * 0.12) (.text "rgba(148,163,184,0.6)")).under group,
    key id "y" 0.0 (y - h * 0.2),
    key id "y" p.duration (y + h * 0.8) "linear"]

/-- A flake of snow, in the group. -/
def flake (p : Plan α) (group id : String) (index : Nat) : List (Action α) :=
  let (w, h) := (p.width, p.height)
  let x := w * 0.12 + Scalar.ofNat (index % 7) * (w * 0.12)
  let y := Scalar.ofNat (index % 2) * (h * 0.2)
  [(Action.circle id x y (Scalar.ofNat (3 + index % 3)) (.text "rgba(248,250,252,0.9)")).under
      group,
    key id "y" 0.0 (y - 20.0),
    key id "y" p.duration (y + h * 0.7) "ease-in-out",
    key id "x" 0.0 (x - 10.0),
    key id "x" p.duration (x + 10.0) "ease-in-out"]

/-- The weather of a plan in a group of its own, numbered from the one after `n` on. The group
takes back the place of its parent, so that the particles stay in the coordinates of the
artboard. -/
def overlay (p : Plan α) (n : Nat) (parent : Option String) (origin : α × α) :
    List (Action α) :=
  let id := Placeholder.id (n + 1)
  let group := Action.group id (-origin.1) (-origin.2) (.ofOption parent)
  let ref (k : Nat) : String := Placeholder.id (n + 2 + k)
  match p.weather with
  | none => []
  | rain => group :: (List.range rain.particles).flatMap fun k => drop p id (ref k) k
  | snow => group :: (List.range snow.particles).flatMap fun k => flake p id (ref k) k

/-- The last number that the weather of a plan gives out. -/
def issued (p : Plan α) (n : Nat) : Nat :=
  if p.weather = none then n else n + 1 + p.weather.particles

end Weather

end Storyboard
