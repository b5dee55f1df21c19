import Storyboard.Arrangement
import Storyboard.Edit.Change
import Storyboard.Placeholder
/-!
# New elements

Simple shapes that a prompt asks for: as many as it says, of one kind, each with its motion.
-/

namespace Storyboard.Edit

variable {α : Type} [Scalar α]

/-- The shape that a prompt names; quoted text alone means a text. -/
def shapeKind (f : Features α) : ElementKind :=
  if f.mentions .circle then .circle
  else if f.mentions .rect then .rect
  else if f.mentions .text then .text
  else if (content? f).isSome then .text
  else .rect

/-- The fill of the `index`-th new element. -/
def fill (f : Features α) (index : Nat) : String :=
  f.colour.getD ((Colour.named.map (·.2))[index % Colour.named.length]?.getD "")

def stroke (f : Features α) : String :=
  if f.mentions .stroke then f.colour.getD "#0f172a" else "none"

def strokeWidth (f : Features α) : α :=
  (nonzero? f.strokeWidth).getD (if f.mentions .stroke then 2.0 else 0.0)

/-- What every new element is given besides its shape. -/
def extras (f : Features α) : Fields α :=
  match f.opacity with
  | some o => [("opacity", .real o)]
  | none => []

/-- A new element under an id, and the place that its motion starts from. A single one follows
the words for a place. -/
def fresh (p : Plan α) (id : String) (index : Nat) : Action α × (α × α) :=
  let f := p.features
  let kind := shapeKind f
  let extent := f.extentFor kind.name p.board
  let spot := Arrangement.place p.layout f.count p.width p.height index
  let steered := f.count == 1 && (f.hasDirection || f.mentions .center)
  let resolve (e : Extent α) (start : α × α) : α × α :=
    if steered then resolvePosition kind.name p.board e p.mentions (some start) else start
  let paint := Value.text (fill f index)
  match kind with
  | .circle =>
    let (x, y) := resolve extent spot
    (.circle id x y (extent.r.getD 0.0) paint (.text (stroke f)) (strokeWidth f) (extras f), (x, y))
  | .rect =>
    let width := extent.width.getD 0.0
    let height := extent.height.getD 0.0
    let (x, y) :=
      if steered then
        let (left, top) := resolve extent (spot.1 - width / 2.0, spot.2 - height / 2.0)
        (left + width / 2.0, top + height / 2.0)
      else spot
    (.rect id (x - width / 2.0) (y - height / 2.0) width height paint (.text (stroke f))
      (strokeWidth f) (extras f), (x, y))
  | _ =>
    let (x, y) := resolve {} spot
    (.text id x y ((content? f).getD "Vector Maestro")
      (Scalar.clamp ((nonzero? f.fontSize).getD 48.0) 18.0 96.0) paint (extras f), (x, y))

/-- A new element followed by its own keyframes. Direction words place it and do not move it. -/
def freshAnimated (p : Plan α) (n index : Nat) : List (Action α) :=
  let id := Placeholder.id (n + 1 + index)
  let (element, base) := fresh p id index
  element :: (Animation.ofFeatures p.features false).keyframes id p.duration p.features base

/-- The new elements of a prompt, with notes on what was done. -/
def create (p : Plan α) (n : Nat) : List (Action α) × List String :=
  let count := p.features.count
  ((List.range count).flatMap (freshAnimated p n),
    ("Created " ++ toString count ++ (if count = 1 then " element." else " elements."))
      :: (if (Animation.ofFeatures p.features false).any then
          ["Added animation based on your prompt."]
        else []))

end Storyboard.Edit
