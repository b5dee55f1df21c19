import Storyboard.Curve
import Storyboard.Draft
import Storyboard.Plan
/-!
# Scenes

A builder for each archetype. Every scene lays its shapes out in a root group, which camera and
weather hold on to, and paints them in the colours of the plan. A builder numbers its elements
from the one after `n` on.
-/

namespace Storyboard.Scene

open Storyboard.Action

variable {α : Type} [Scalar α]

/-- The id of the `k`-th element of a scene that starts after `n`. -/
def ref (n k : Nat) : String := Placeholder.id (n + k)

/-- A scene in its root group. -/
def inGroup (n count : Nat) (summary title : String) (actions : List (Action α)) :
    Draft α where
  summary
  actions := group (ref n 1) 0.0 0.0 :: actions
  root := some (ref n 1)
  title
  issued := n + count

def sunset (p : Plan α) (n : Nat) : Draft α :=
  let (w, h, d) := (p.width, p.height, p.duration)
  let (root, sky, sun, ground) := (ref n 1, ref n 2, ref n 3, ref n 4)
  inGroup n 4 "Created a sunset scene with a drifting sun." "Scene: Sunset" [
    (rect sky 0.0 0.0 w h (p.background sky 120.0)).under root,
    (circle sun (w * 0.55) (h * 0.6) (p.minDim * 0.12) (p.accent sun)).under root,
    (rect ground 0.0 (h * 0.72) w (h * 0.28) (.text p.palette.last)).under root,
    key sun "y" 0.0 (h * 0.6),
    key sun "y" d (h * 0.48) "ease-in-out",
    key ground "opacity" 0.0 0.0,
    key ground "opacity" (d * 0.4) 1.0]

def ocean (p : Plan α) (n : Nat) : Draft α :=
  let (w, h, d) := (p.width, p.height, p.duration)
  let (root, sky, sun, sea) := (ref n 1, ref n 2, ref n 3, ref n 4)
  inGroup n 4 "Created an ocean scene with gentle motion." "Scene: Ocean" [
    (rect sky 0.0 0.0 w (h * 0.6) (p.background sky 180.0)).under root,
    (circle sun (w * 0.2) (h * 0.25) (p.minDim * 0.08) (p.accent sun)).under root,
    (rect sea 0.0 (h * 0.55) w (h * 0.45) (p.colour 1 "#0ea5e9")).under root,
    key sea "x" 0.0 0.0,
    key sea "x" d (-20.0) "ease-in-out",
    key sea "opacity" 0.0 0.0,
    key sea "opacity" (d * 0.3) 1.0]

/-- A house of the skyline, which fades in a little after the one before it. -/
def house (p : Plan α) (root id : String) (index : Nat) : List (Action α) :=
  let step := p.width / 5.0
  let tall := p.height * 0.35 * (0.5 + Scalar.ofNat (index % 3) * 0.2)
  [(rect id (Scalar.ofNat index * step + step * 0.15) (p.height * 0.6 - tall) (step * 0.7) tall
      (p.colour 1 "#1f2937")).under root,
    key id "opacity" 0.0 0.0,
    key id "opacity" (Scalar.min p.duration (1.5 + Scalar.ofNat index * 0.2)) 1.0]

def city (p : Plan α) (n : Nat) : Draft α :=
  let (root, sky) := (ref n 1, ref n 2)
  inGroup n 7 "Built a simple city skyline scene." "Scene: City" <|
    (rect sky 0.0 0.0 p.width p.height (p.background sky 100.0)).under root
      :: (List.range 5).flatMap fun i => house p root (ref n (3 + i)) i

/-- A tree, whose crown sways. -/
def tree (p : Plan α) (root trunk crown : String) (index : Nat) : List (Action α) :=
  let (w, h, d) := (p.width, p.height, p.duration)
  let (ground, trunkWidth, trunkHeight) := (h * 0.7, w * 0.035, h * 0.18)
  let x := w / 6.0 * Scalar.ofNat (index + 1)
  [(rect trunk (x - trunkWidth / 2.0) (ground - trunkHeight) trunkWidth trunkHeight
      (.text "#7c2d12")).under root,
    (circle crown x (ground - trunkHeight) (p.minDim * 0.08) (p.colour 2 "#16a34a")).under root,
    key crown "rotation" 0.0 (-2.0),
    key crown "rotation" (d * 0.5) 2.0 "ease-in-out",
    key crown "rotation" d (-2.0)]

def forest (p : Plan α) (n : Nat) : Draft α :=
  let (w, h) := (p.width, p.height)
  let (root, sky, ground) := (ref n 1, ref n 2, ref n 3)
  inGroup n 13 "Built a forest scene with layered trees." "Scene: Forest" <|
    [(rect sky 0.0 0.0 w h (p.background sky 160.0)).under root,
      (rect ground 0.0 (h * 0.7) w (h * 0.3) (p.colour 1 "#166534")).under root]
      ++ (List.range 5).flatMap fun i => tree p root (ref n (4 + 2 * i)) (ref n (5 + 2 * i)) i

/-- A cloud that drifts across the sky. -/
def driftingCloud (p : Plan α) (root id : String) (index : Nat) : List (Action α) :=
  let x := p.width * (0.25 + Scalar.ofNat index * 0.25)
  let y := p.height * (0.2 + Scalar.ofNat (index % 2) * 0.08)
  [(path id x y (Curve.render (Curve.cloud (140.0 : α) 50.0)) (p.colour 3 "#f8fafc")).under root,
    key id "x" 0.0 (x - 20.0),
    key id "x" p.duration (x + 30.0) "ease-in-out"]

def mountain (p : Plan α) (n : Nat) : Draft α :=
  let (w, h) := (p.width, p.height)
  let (root, sky, sun, ridge) := (ref n 1, ref n 2, ref n 3, ref n 4)
  inGroup n 7 "Created a mountain landscape with drifting clouds." "Scene: Mountain" <|
    [(rect sky 0.0 0.0 w h (p.background sky 140.0)).under root,
      (circle sun (w * 0.18) (h * 0.25) (p.minDim * 0.09) (p.accent sun)).under root,
      (path ridge (w * 0.5) (h * 0.55) (Curve.render (Curve.mountain (w * 1.2) (h * 0.4)))
        (p.colour 1 "#64748b")).under root]
      ++ (List.range 3).flatMap fun i => driftingCloud p root (ref n (5 + i)) i

def desert (p : Plan α) (n : Nat) : Draft α :=
  let (w, h, d) := (p.width, p.height, p.duration)
  let (root, sky, sun, dune) := (ref n 1, ref n 2, ref n 3, ref n 4)
  inGroup n 4 "Built a warm desert scene with rolling dunes." "Scene: Desert" [
    (rect sky 0.0 0.0 w h (p.background sky 100.0)).under root,
    (circle sun (w * 0.75) (h * 0.25) (p.minDim * 0.08) (p.accent sun)).under root,
    (path dune (w * 0.5) (h * 0.7) (Curve.render (Curve.dune (w * 1.2) (h * 0.25)))
      (p.colour 1 "#f59e0b")).under root,
    key dune "y" 0.0 (h * 0.7),
    key dune "y" d (h * 0.68) "ease-in-out"]

/-- A star that twinkles, in one of two rows of six. -/
def star (p : Plan α) (root id : String) (index : Nat) : List (Action α) :=
  let (w, h, d) := (p.width, p.height, p.duration)
  let x := w * 0.1 + Scalar.ofNat (index % 6) * (w * 0.14)
  let y := h * (0.12 + Scalar.ofNat (index / 6) * 0.18)
  [(circle id x y (Scalar.ofNat (3 + index % 3)) (p.colour 2 "#38bdf8")).under root,
    key id "opacity" 0.0 0.3,
    key id "opacity" (d * 0.5) 1.0,
    key id "opacity" d 0.4]

def space (p : Plan α) (n : Nat) : Draft α :=
  let (w, h, d) := (p.width, p.height, p.duration)
  let (root, sky, planet) := (ref n 1, ref n 2, ref n 15)
  inGroup n 15 "Generated a space scene with twinkling stars." "Scene: Space" <|
    [(rect sky 0.0 0.0 w h (p.background sky 200.0)).under root]
      ++ ((List.range 12).flatMap fun i => star p root (ref n (3 + i)) i)
      ++ [(circle planet (w * 0.7) (h * 0.65) (p.minDim * 0.14) (p.colour 3 "#f472b6")).under root,
        key planet "y" 0.0 (h * 0.7),
        key planet "y" (d * 0.5) (h * 0.62) "ease-in-out",
        key planet "y" d (h * 0.7)]

/-- A strip of light on the wall. -/
def strip (p : Plan α) (root id : String) (index : Nat) : List (Action α) :=
  let (w, h, d) := (p.width, p.height, p.duration)
  let x := w * 0.15 + Scalar.ofNat index * w * 0.2
  let y := h * 0.18 + Scalar.ofNat (index % 2 * 40)
  [(rect id x y (w * 0.12) 6.0 (.text (p.palette.cycle index))).under root,
    key id "opacity" 0.0 0.4,
    key id "opacity" (d * 0.5) 1.0,
    key id "opacity" d 0.5]

def neonStudio (p : Plan α) (n : Nat) : Draft α :=
  let (w, h) := (p.width, p.height)
  let (root, wall, floor) := (ref n 1, ref n 2, ref n 3)
  inGroup n 7 "Set up a neon studio scene with glowing strips." "Scene: Neon Studio" <|
    [(rect wall 0.0 0.0 w (h * 0.7) (p.background wall 120.0)).under root,
      (rect floor 0.0 (h * 0.7) w (h * 0.3) (.text "#111827")).under root]
      ++ (List.range 4).flatMap fun i => strip p root (ref n (4 + i)) i

def meadow (p : Plan α) (n : Nat) : Draft α :=
  let (w, h, d) := (p.width, p.height, p.duration)
  let (root, sky, sun, field) := (ref n 1, ref n 2, ref n 3, ref n 4)
  inGroup n 4 "Created a bright meadow scene." "Scene: Meadow" [
    (rect sky 0.0 0.0 w h (p.background sky 160.0)).under root,
    (circle sun (w * 0.2) (h * 0.2) (p.minDim * 0.08) (p.colour 3 "#fde047")).under root,
    (rect field 0.0 (h * 0.65) w (h * 0.35) (p.colour 1 "#16a34a")).under root,
    key field "opacity" 0.0 0.6,
    key field "opacity" (d * 0.4) 1.0]

def generic (p : Plan α) (n : Nat) : Draft α :=
  let (w, h, d) := (p.width, p.height, p.duration)
  let (root, sky, ground, accent) := (ref n 1, ref n 2, ref n 3, ref n 4)
  inGroup n 4 "Generated a simple scene with sky and ground." "Scene: Generic" [
    (rect sky 0.0 0.0 w h (p.background sky 110.0)).under root,
    (rect ground 0.0 (h * 0.7) w (h * 0.3) (p.colour 2 "#22c55e")).under root,
    (circle accent (w * 0.7) (h * 0.3) (p.minDim * 0.08) (p.colour 3 "#facc15")).under root,
    key accent "y" 0.0 (h * 0.32),
    key accent "y" d (h * 0.26) "ease-in-out"]

/-- The builder of an archetype; characters and basic shapes have no scene. -/
def builder? : Archetype → Option (Plan α → Nat → Draft α)
  | .sunset => some sunset
  | .ocean => some ocean
  | .city => some city
  | .forest => some forest
  | .mountain => some mountain
  | .desert => some desert
  | .space => some space
  | .neonStudio => some neonStudio
  | .meadow => some meadow
  | .genericScene => some generic
  | .character | .basic => none

/-- The scene of a plan. -/
def build? (p : Plan α) (n : Nat) : Option (Draft α) :=
  (builder? p.archetype).map fun make => make p n

end Storyboard.Scene
