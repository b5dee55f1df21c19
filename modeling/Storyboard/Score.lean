import Storyboard.Quality
/-!
# Scores

How far a sequence of actions meets what a prompt is expected to give: something new or an image
of the canvas that moves, keyframes, and the kinds of elements that are asked for.
-/

namespace Storyboard

/-- The kinds of output that can be expected. -/
inductive Expectation where
  | path | photo | character
  deriving DecidableEq, Repr

/-- Counts over a sequence of actions. -/
structure Analysis (α : Type) where
  elements : Nat := 0
  keyframes : Nat := 0
  hasPath : Bool := false
  hasImage : Bool := false
  hasGroup : Bool := false
  /-- The images of the canvas that keyframes move, each once. -/
  moved : List (Value α) := []

/-- A score, and what was expected in vain. -/
structure Score (α : Type) where
  points : Nat
  passed : Bool
  missed : List Expectation
  analysis : Analysis α

namespace Expectation

def name : Expectation → String
  | path => "path"
  | photo => "photo"
  | character => "character"

def inventory : List Expectation := [path, photo, character]

variable {α : Type} [Scalar α]

/-- The expectations that are raised. -/
def isRaised (expect : Value α) (e : Expectation) : Bool :=
  ((expect.field? e.name).map Value.truthy).getD false

def isMet (a : Analysis α) : Expectation → Bool
  | path => a.hasPath
  | photo => a.hasImage
  | character => a.hasGroup

end Expectation

namespace Analysis

variable {α : Type} [Scalar α]

open Quality (payloadOf fieldOf)

/-- Counts a new element. -/
def addElement (a : Analysis α) (kind : Value α) : Analysis α :=
  let isA (k : ElementKind) : Bool := (kind.text? == some k.name)
  { a with
    elements := a.elements + 1
    hasPath := a.hasPath || isA .path
    hasImage := a.hasImage || isA .image
    hasGroup := a.hasGroup || isA .group }

/-- Counts a keyframe; on an image of the canvas it counts as an image too. -/
def addKeyframe (images : Membership α) (a : Analysis α) (target : Value α) :
    Except Fault (Analysis α) := do
  let a := { a with keyframes := a.keyframes + 1 }
  if ← images.holds target then
    return { a with
      hasImage := true
      moved := if target.isIn a.moved then a.moved else target :: a.moved }
  else return a

def count (images : Membership α) (a : Analysis α) : List (Value α) → Except Fault (Analysis α)
  | [] => .ok a
  | action :: rest => do
    let a ← match ActionName.ofValue? action with
      | some .addElement => pure (a.addElement (fieldOf (payloadOf action) "type"))
      | some .addKeyframe => a.addKeyframe images (fieldOf (payloadOf action) "elementId")
      | _ => pure a
    count images a rest

/-- Counts over the actions, with the images that the canvas has. -/
def ofActions (actions images : Value α) : Except Fault (Analysis α) := do
  let images ← Membership.ofValue images
  match actions.elements? with
  | some items => count images {} items
  | none => throw (.notIterable actions.kind)

def isAnimated (a : Analysis α) : Bool := a.keyframes ≠ 0

/-- Something is new, or an image of the canvas moves. -/
def isProductive (a : Analysis α) : Bool := 0 < a.elements + a.moved.length

def toValue (a : Analysis α) : Value α := .object [
  ("elements", .int a.elements), ("animated_images", .int a.moved.length),
  ("keyframes", .int a.keyframes), ("has_path", .bool a.hasPath),
  ("has_image", .bool a.hasImage), ("has_group", .bool a.hasGroup),
  ("has_animation", .bool a.isAnimated)]

end Analysis

namespace Score

variable {α : Type} [Scalar α]

/-- The points that a case is out of. -/
def full : Nat := 3

/-- One point for output, one for motion, and one for each expectation that is met. -/
def ofAnalysis (expect : Value α) (a : Analysis α) : Score α :=
  let raised := Expectation.inventory.filter (Expectation.isRaised expect)
  let missed := raised.filter fun e => !(e.isMet a)
  { points := (if a.isProductive then 1 else 0) + (if a.isAnimated then 1 else 0)
      + (raised.length - missed.length)
    passed := a.isProductive && a.isAnimated && missed.isEmpty
    missed
    analysis := a }

def ofActions (actions expect images : Value α) : Except Fault (Score α) :=
  (Analysis.ofActions actions images).map (ofAnalysis expect)

def toValue (s : Score α) : Value α := .object [
  ("score", .int s.points), ("max_score", .int full), ("passed", .bool s.passed),
  ("missed", .list (s.missed.map fun e => .text e.name)), ("analysis", s.analysis.toValue)]

end Score

end Storyboard
