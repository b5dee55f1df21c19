import Storyboard.Animation
import Storyboard.Plan
/-!
# Changes

What a prompt changes on an element of the canvas: its properties, its place and its motion.
-/

namespace Storyboard.Edit

variable {α : Type} [Scalar α]

/-- A quantity that is not zero. -/
def nonzero? (x? : Option α) : Option α := x?.filter fun x => !Scalar.isZero x

/-- The text that a prompt quotes. -/
def content? (f : Features α) : Option String := f.content.filter (· ≠ "")

/-- A scale that an edit leaves an element with. -/
def scaled (scale factor : α) : α := Scalar.clamp (scale * factor) 0.1 10.0

/-- The measures that a prompt asks of an element of this kind, as far as elements have them. -/
def measures (p : Plan α) (kind : String) : Fields α :=
  let asked := p.features.explicitExtent kind p.board
  if kind = "circle" then Extent.toFields { r := asked.r }
  else if kind = "rect" then Extent.toFields { width := asked.width, height := asked.height }
  else []

/-- The properties of an element that a prompt changes where it stands. -/
def changes (p : Plan α) (e : Element α) : Fields α :=
  let f := p.features
  let stroked := f.mentions .stroke
  let scale := e.scale.getD 1.0
  (match f.colour with
    | some c => [(if stroked then "stroke" else "fill", .text c)]
    | none => [])
    ++ (match nonzero? f.strokeWidth with
      | some w => if stroked then [("strokeWidth", .real w)] else []
      | none => [])
    ++ (match f.opacity with
      | some o => [("opacity", .real o)]
      | none => [])
    ++ (if f.mentions .bigger then [("scale", .real (scaled scale 1.2))]
      else if f.mentions .smaller then [("scale", .real (scaled scale 0.8))]
      else [])
    ++ measures p e.kind
    ++ (match content? f with
      | some s => if e.kind = "text" then [("text", .text s)] else []
      | none => [])

/-- The measures of an element once the prompt has changed it. -/
def extent (p : Plan α) (e : Element α) : Extent α :=
  let asked := p.features.explicitExtent e.kind p.board
  if e.kind = "circle" then { asked with r := asked.r.or e.r }
  else if e.kind = "rect" then
    { asked with width := asked.width.or e.width, height := asked.height.or e.height }
  else asked

/-- Where an element stands; an unknown coordinate is in the middle. -/
def base (p : Plan α) (e : Element α) : α × α :=
  (e.x.getD (p.width / 2.0), e.y.getD (p.height / 2.0))

/-- Where the prompt puts an element; nowhere new without words for a place. -/
def goal? (p : Plan α) (e : Element α) : Option (α × α) :=
  if p.features.hasDirection || p.mentions .center then
    some (resolvePosition e.kind p.board (extent p e) p.mentions (some (base p e)))
  else none

/-- Some properties of an element, if any. -/
def update? (id : String) (props : Fields α) : List (Action α) :=
  if props.isEmpty then [] else [.update id props]

/-- The edit of one element among all on the canvas. -/
def changeInPlace (p : Plan α) (e : Element α) : List (Action α) :=
  update? e.id (changes p e)
    ++ (Animation.ofFeatures p.features).keyframes e.id p.duration p.features (base p e)

def changeAll (p : Plan α) : List (Action α) := p.existing.flatMap (changeInPlace p)

/-- The edit of the element that is meant, with notes on what was done. -/
def change (p : Plan α) (e : Element α) : List (Action α) × List String :=
  let goal := goal? p e
  let placed : Fields α := match goal with
    | some (x, y) => [("x", .real x), ("y", .real y)]
    | none => []
  let updates := update? e.id (changes p e ++ placed)
  let frames :=
    (Animation.ofFeatures p.features).keyframes e.id p.duration p.features (base p e) goal
  (updates ++ frames,
    (if updates.isEmpty then [] else ["Updated an existing element."])
      ++ (if frames.isEmpty then [] else ["Added animation to the selected element."]))

end Storyboard.Edit
