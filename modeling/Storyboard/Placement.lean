import Storyboard.Prompt.Features
import Storyboard.Value.Number
/-!
# Sizes and places on the artboard

The artboard, the size that a prompt gives an element, and the place where direction words put
it. Rectangles are placed by their top left corner, everything else by its centre.
-/

namespace Storyboard

/-- The drawing area. -/
structure Artboard (α : Type) where
  width : α
  height : α

/-- The known measures of an element. -/
structure Extent (α : Type) where
  r : Option α := none
  width : Option α := none
  height : Option α := none

variable {α : Type} [Scalar α]

namespace Artboard

def minDim (board : Artboard α) : α := Scalar.min board.width board.height

def standard : Artboard α := ⟨800.0, 600.0⟩

/-- The artboard that a value describes; missing dimensions are the standard ones. -/
def read (value : Value α) : Except Fault (Artboard α) := do
  let width ← ((value.field? "width").getD (.real 800.0)).toScalar
  let height ← ((value.field? "height").getD (.real 600.0)).toScalar
  return ⟨width, height⟩

end Artboard

namespace Extent

def readOne (fields : Fields α) (name : String) : Except Fault (Option α) :=
  match Fields.get? fields name with
  | none => .ok none
  | some v => if v.truthy then v.toScalar.map some else .ok (some 0.0)

/-- The measures that fields describe; an empty one counts as zero. -/
def read (fields : Fields α) : Except Fault (Extent α) := do
  let r ← readOne fields "r"
  let width ← readOne fields "width"
  let height ← readOne fields "height"
  return { r, width, height }

def isEmpty (e : Extent α) : Bool := e.r.isNone && e.width.isNone && e.height.isNone

def toFields (e : Extent α) : Fields α :=
  [("r", e.r), ("width", e.width), ("height", e.height)].filterMap fun (name, x?) =>
    x?.map fun x => (name, Value.real x)

end Extent

namespace Features

/-- The measures that a prompt asks for, by the kind of the element; none when it asks for none. -/
def explicitExtent (f : Features α) (kind : String) (board : Artboard α) : Extent α :=
  let cs := f.text.toList
  if kind = "circle" then
    match Measure.radius? cs with
    | some r => { r := some r }
    | none =>
      if f.mentions .small then { r := some (board.minDim * 0.06) }
      else if f.mentions .large then { r := some (board.minDim * 0.18) }
      else {}
  else if kind = "rect" ∨ kind = "image" then
    match Measure.square? cs with
    | some side => { width := some side, height := some side }
    | none =>
      let asked : Extent α := { width := Measure.width? cs, height := Measure.height? cs }
      let base := board.minDim * 0.18
      if !asked.isEmpty then asked
      else if f.mentions .small then { width := some base, height := some (base * 0.7) }
      else if f.mentions .large then { width := some (base * 2.0), height := some (base * 1.2) }
      else {}
  else {}

/-- The measures of a new element: those asked for, and shares of the artboard for the rest. -/
def extentFor (f : Features α) (kind : String) (board : Artboard α) : Extent α :=
  let asked := f.explicitExtent kind board
  if kind = "circle" then { asked with r := some (asked.r.getD (board.minDim * 0.1)) }
  else if kind = "rect" ∨ kind = "image" then
    let base := board.minDim * 0.18
    { asked with
      width := some (asked.width.getD (base * 1.4))
      height := some (asked.height.getD base) }
  else asked

end Features

/-- The gap that direction words leave to an edge. -/
def edgePadding : α := 40.0

/-- The place of an element after the direction words. Left wins over right and up over down;
an axis that no word names keeps its place, and without one the middle. -/
def resolvePosition (kind : String) (board : Artboard α) (extent : Extent α)
    (mentions : Keyword → Bool) (current : Option (α × α)) : α × α :=
  let (x, y) := current.getD (board.width * 0.5, board.height * 0.5)
  let radius := extent.r.getD 0.0
  let boxWidth := extent.width.getD (radius * 2.0)
  let boxHeight := extent.height.getD (radius * 2.0)
  let corner := kind == "rect"
  let (x, y) :=
    if mentions .center then
      if corner then ((board.width - boxWidth) / 2.0, (board.height - boxHeight) / 2.0)
      else (board.width / 2.0, board.height / 2.0)
    else (x, y)
  let x :=
    if mentions .left then if corner then edgePadding else edgePadding + radius
    else if mentions .right then
      if corner then board.width - boxWidth - edgePadding
      else board.width - edgePadding - radius
    else x
  let y :=
    if mentions .up then if corner then edgePadding else edgePadding + radius
    else if mentions .down then
      if corner then board.height - boxHeight - edgePadding
      else board.height - edgePadding - radius
    else y
  (x, y)

end Storyboard
