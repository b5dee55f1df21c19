import Storyboard.Curve
import Storyboard.Draft
import Storyboard.Plan
/-!
# Shapes

A single curve in the middle of the artboard, drawn when the prompt asks for motion.
-/

namespace Storyboard.Shape

open Storyboard.Action (key)

variable {α : Type} [Scalar α]

/-- A curve that a keyword asks for. -/
structure Rule (α : Type) where
  keyword : Keyword
  summary : String
  curve : Plan α → List (Curve.Command α)

/-- The curves, in order of preference. -/
def rules : List (Rule α) := [
  ⟨.spiral, "Created a spiral path.", fun p => Curve.spiral 3.0 (p.minDim * 0.25) 80⟩,
  ⟨.wavePath, "Created a wave path.", fun p => Curve.wave (p.width * 0.6) (p.height * 0.08) 3⟩,
  ⟨.heart, "Created a heart path.", fun p => Curve.heart (p.minDim * 0.35)⟩,
  ⟨.starShape, "Created a star path.",
    fun p => Curve.star 5 (p.minDim * 0.2) (p.minDim * 0.08)⟩,
  ⟨.zigzag, "Created a zigzag path.", fun p => Curve.zigzag p.width p.height 6⟩,
  ⟨.polygon, "Created a polygon path.",
    fun p => Curve.star 6 (p.minDim * 0.18) (p.minDim * 0.18)⟩,
  ⟨.blob, "Created an organic blob path.", fun p => Curve.blob (p.minDim * 0.22) 8⟩]

/-- The rule of a plan; a plain blob when no keyword asks for a curve. -/
def rule (p : Plan α) : Rule α :=
  (rules.find? fun r => p.mentions r.keyword).getD
    ⟨.path, "Created a curved path shape.", fun p => Curve.blob (p.minDim * 0.18) 7⟩

/-- The curve is shown as a line only. -/
def outlined (p : Plan α) : Bool := p.features.any [.outline, .stroke]

def element (p : Plan α) (id : String) : Action α :=
  let x := p.width * 0.5
  let y := p.height * 0.5
  let d := Curve.render ((rule p).curve p)
  let dashes : Fields α :=
    [("strokeDasharray", if p.mentions .animate then .text "8 6" else .null)]
  if outlined p then Action.path id x y d (.text "none") (.text p.palette.first) 4.0 dashes
  else Action.path id x y d (p.colour 1 p.palette.first) (.text "#0f172a") 2.0 dashes

/-- The curve appears along its length. -/
def drawing (p : Plan α) (id : String) : List (Action α) :=
  if p.features.any [.animate, .draw, .path] then [
    key id "drawStartPercent" 0.0 0.0,
    key id "drawEndPercent" 0.0 0.05,
    key id "drawEndPercent" p.duration 1.0 "ease-in-out"]
  else []

/-- The shape of a plan. -/
def build (p : Plan α) (n : Nat) : Draft α :=
  let id := Placeholder.id (n + 1)
  { summary := (rule p).summary
    actions := element p id :: drawing p id
    title := "Path: Curves/Blob"
    issued := n + 1 }

end Storyboard.Shape
