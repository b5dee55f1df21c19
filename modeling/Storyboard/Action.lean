import Storyboard.Action.Name
import Storyboard.Decimal.Rounding
/-!
# Actions

The edits that scenes are made of: adding an element, changing one, changing the artboard and
setting a keyframe; and their form on the wire.
-/

namespace Storyboard

/-- The kinds of elements that can be added. -/
inductive ElementKind where
  | rect | circle | path | text | group | image
  deriving DecidableEq, Repr

namespace ElementKind

def name : ElementKind → String
  | rect => "rect"
  | circle => "circle"
  | path => "path"
  | text => "text"
  | group => "group"
  | image => "image"

def inventory : List ElementKind := [rect, circle, path, text, group, image]

end ElementKind

/-- What an action says about the parent of a new element. -/
inductive Parent where
  | unstated
  | none
  | of (id : String)
  deriving DecidableEq, Repr

/-- A value that a property of an element takes at a time. -/
structure Keyframe (α : Type) where
  element : String
  property : String
  time : α
  value : Value α
  easing : Option String := none

/-- An edit that the compiler makes. -/
inductive Action (α : Type) where
  /-- A new element; its id comes before the other properties. -/
  | add (kind : ElementKind) (id : String) (props : Fields α) (parent : Parent)
  | update (id : String) (props : Fields α)
  | board (props : Fields α)
  | keyframe (k : Keyframe α)

namespace Parent

variable {α : Type}

def toFields : Parent → Fields α
  | unstated => []
  | none => [("targetParentId", .null)]
  | of id => [("targetParentId", .text id)]

def ofOption : Option String → Parent
  | some id => of id
  | Option.none => none

end Parent

namespace Action

variable {α : Type}

/-- An action on the wire: its name and what it carries. -/
def wire (name : ActionName) (payload : Value α) : Value α :=
  .object [("type", .text name.text), ("payload", payload)]

/-- The payload of a keyframe. -/
def keyframePayload (k : Keyframe α) : Fields α :=
  [("elementId", .text k.element), ("property", .text k.property), ("time", .real k.time),
    ("value", k.value)]
    ++ (match k.easing with
      | some e => [("easing", .text e)]
      | none => [])

/-- The wire form of an action. -/
def toValue : Action α → Value α
  | add kind id props parent =>
    wire .addElement (.object ([("type", .text kind.name),
      ("props", .object (("id", .text id) :: props))] ++ parent.toFields))
  | update id props => wire .updateElement (.object [("id", .text id), ("props", .object props)])
  | board props => wire .setArtboard (.object props)
  | keyframe k => wire .addKeyframe (.object (keyframePayload k))

/-- The same new element, placed under a parent. -/
def under (parent : String) : Action α → Action α
  | add kind id props _ => add kind id props (.of parent)
  | a => a

/-- A keyframe; an empty easing is none. -/
def frame (element property : String) (time : α) (value : Value α) (easing : String) :
    Action α :=
  .keyframe { element, property, time, value, easing := if easing = "" then none else some easing }

/-- A keyframe with a number for its value. -/
def key (element property : String) (time value : α) (easing : String := "") : Action α :=
  frame element property time (.real value) easing

variable [Scalar α]

/-- Outline properties. -/
def strokeFields (stroke : Value α) (strokeWidth : α) : Fields α :=
  [("stroke", stroke), ("strokeWidth", .real strokeWidth)]

def rect (id : String) (x y width height : α) (fill : Value α) (stroke : Value α := .text "none")
    (strokeWidth : α := 0.0) (extra : Fields α := []) : Action α :=
  .add .rect id (Fields.setAll ([("x", .real x), ("y", .real y), ("width", .real width),
    ("height", .real height), ("fill", fill)] ++ strokeFields stroke strokeWidth) extra) .unstated

def circle (id : String) (x y r : α) (fill : Value α) (stroke : Value α := .text "none")
    (strokeWidth : α := 0.0) (extra : Fields α := []) : Action α :=
  .add .circle id (Fields.setAll ([("x", .real x), ("y", .real y), ("r", .real r),
    ("fill", fill)] ++ strokeFields stroke strokeWidth) extra) .unstated

/-- A line of text, centred on its place. -/
def text (id : String) (x y : α) (content : String) (fontSize : α) (fill : Value α)
    (extra : Fields α := []) : Action α :=
  .add .text id (Fields.setAll [("x", .real x), ("y", .real y), ("text", .text content),
    ("fontSize", .real fontSize), ("fill", fill), ("textAnchor", .text "middle")] extra) .unstated

/-- A path; extra properties that are null are left out. -/
def path (id : String) (x y : α) (d : String) (fill : Value α) (stroke : Value α := .text "none")
    (strokeWidth : α := 0.0) (extra : Fields α := []) : Action α :=
  .add .path id (Fields.setAll ([("x", .real x), ("y", .real y), ("d", .text d),
    ("fill", fill)] ++ strokeFields stroke strokeWidth)
    (extra.filter fun (_, v) => v.kind ≠ .null)) .unstated

def group (id : String) (x : α := 0.0) (y : α := 0.0) (parent : Parent := .unstated)
    (extra : Fields α := []) : Action α :=
  .add .group id (Fields.setAll [("x", .real x), ("y", .real y)] extra) parent

/-- An image; an empty address is left out. -/
def image (id : String) (x y width height : α) (href : Option String := none)
    (extra : Fields α := []) : Action α :=
  .add .image id (Fields.setAll ([("x", .real x), ("y", .real y), ("width", .real width),
    ("height", .real height)] ++ (match href with
      | some h => if h = "" then [] else [("href", .text h)]
      | none => [])) extra) .unstated

end Action

namespace Gradient

variable {α : Type} [Scalar α]

/-- The place of a stop on its gradient, to four places. -/
def offset (index last : Nat) : α :=
  if last = 0 then 0.0
  else
    let ratio : α := Scalar.ofNat index / Scalar.ofNat last
    match Scalar.toRat? ratio with
    | some q => Scalar.ofDecimal false (Decimal.atPlaces 4 q).natAbs (-4)
    | none => ratio

/-- Evenly spread stops, one for each colour. -/
def stops (id : String) (colours : List String) : Value α :=
  .list (colours.zipIdx.map fun (colour, index) => .object [
    ("id", .text (id ++ "-stop-" ++ toString (index + 1))),
    ("offset", .real (offset index (colours.length - 1))),
    ("color", .text colour)])

def linear (id : String) (colours : List String) (angle : α) : Value α :=
  .object [("id", .text id), ("type", .text "linearGradient"), ("angle", .real angle),
    ("stops", stops id colours)]

def radial (id : String) (colours : List String) : Value α :=
  .object [("id", .text id), ("type", .text "radialGradient"), ("cx", .text "50%"),
    ("cy", .text "50%"), ("r", .text "60%"), ("stops", stops id colours)]

end Gradient

end Storyboard
