import Storyboard.Issue
import Storyboard.Placement
/-!
# Requests

What the editor asks for: a prompt, the artboard, a duration, the selected element and the
elements on the canvas. Reading a request collects every issue, in the order of the fields.
-/

namespace Storyboard

/-- An element on the canvas. Fields that have no meaning here are kept as they are. -/
structure Element (α : Type) where
  id : String
  kind : String := "rect"
  x : Option α := none
  y : Option α := none
  width : Option α := none
  height : Option α := none
  r : Option α := none
  scale : Option α := none
  href : Option String := none
  parent : Option String := none
  extras : Fields α := []

/-- A request of the editor. -/
structure Request (α : Type) where
  prompt : String := ""
  artboard : Option (Artboard α) := none
  duration : Option α := none
  selected : Option (Element α) := none
  existing : List (Element α) := []

namespace Request

variable {α : Type} [Scalar α]

/-- A number in the form that requests take it: a number, a truth value or a plain numeral. -/
def number (value : Value α) : Checked α :=
  match value with
  | .bool b => .valid (if b then 1.0 else 0.0)
  | .int n =>
    let x : α := Scalar.ofInt n
    if Scalar.isFinite x then .valid x else .issue .notNumber
  | .real x => .valid x
  | .text s =>
    let cs := s.toList
    let read := (Text.scalarOf? Text.plainStyle (Text.trimBy Text.isSpace cs)).or
      ((Text.withoutGroups? cs).bind (Text.scalarOf? Text.plainStyle))
    match read with
    | some x => .valid x
    | none => .issue .notNumeral
  | _ => .issue .notNumber

def string (value : Value α) : Checked String :=
  match value with
  | .text s => .valid s
  | _ => .issue .notText

/-- Nothing is a value too. -/
def optional {β : Type} (check : Value α → Checked β) (value : Value α) : Checked (Option β) :=
  match value with
  | .null => .valid none
  | value => (check value).map some

/-- A field under its name, with a value for when it is absent. -/
def field {β : Type} (fields : Fields α) (name : String) (absent : Checked β)
    (check : Value α → Checked β) : Checked β :=
  (match Fields.get? fields name with
    | some value => check value
    | none => absent).under (.name name)

/-- A field under its wire name or, when that is absent, under its other name. -/
def aliased {β : Type} (fields : Fields α) (name other : String) (absent : Checked β)
    (check : Value α → Checked β) : Checked β :=
  match Fields.get? fields name with
  | some value => (check value).under (.name name)
  | none =>
    match Fields.get? fields other with
    | some value => (check value).under (.name other)
    | none => absent.under (.name name)

def positive (value : Value α) : Checked α :=
  match number value with
  | .valid x => if x ≤ 0.0 then .issue .notPositive else .valid x
  | .invalid is => .invalid is

/-- An artboard; `other` is the issue with what is no object. -/
def readArtboard (other : IssueKind) (value : Value α) : Checked (Artboard α) :=
  match value with
  | .object fields =>
    ((field fields "width" (.valid 800.0) positive).map Artboard.mk).app
      (field fields "height" (.valid 600.0) positive)
  | _ => .issue other

/-- The field names of an element that have a meaning, less the parent. -/
def elementNames : List String :=
  ["id", "type", "x", "y", "width", "height", "r", "scale", "href"]

/-- The fields of an element without a meaning. The other name of the parent has one only when
its wire name is absent. -/
def elementExtras (fields : Fields α) : Fields α :=
  let parent :=
    if (Fields.get? fields "parentId").isSome then "parentId" else "parent_id"
  fields.filter fun (name, _) => !elementNames.contains name && name ≠ parent

def readElement (other : IssueKind) (value : Value α) : Checked (Element α) :=
  match value with
  | .object fields =>
    let scalarField (name : String) := field fields name (.valid none) (optional number)
    let build (id kind : String) (x y width height r scale : Option α)
        (href parent : Option String) : Element α :=
      { id, kind, x, y, width, height, r, scale, href, parent, extras := elementExtras fields }
    let core := (((field fields "id" (.issue .missing) string).map build).app
      (field fields "type" (.valid "rect") string))
    let placed := (((core.app (scalarField "x")).app (scalarField "y")).app
      (scalarField "width")).app (scalarField "height")
    ((((placed.app (scalarField "r")).app (scalarField "scale")).app
      (field fields "href" (.valid none) (optional string))).app
      (aliased fields "parentId" "parent_id" (.valid none) (optional string)))
  | _ => .issue other

def promptText (value : Value α) : Checked String :=
  match value with
  | .null => .valid ""
  | value => .valid value.display

def readElements (other : IssueKind) (value : Value α) : Checked (List (Element α)) :=
  match value with
  | .list items => .each (readElement other) 0 items
  | _ => .issue .notList

/-- A duration that is not above zero counts as none. -/
def lasting (duration : Option α) : Option α :=
  match duration with
  | some x => if x ≤ 0.0 then none else some x
  | none => none

/-- Reads a request from its fields. -/
def read (other : IssueKind) (fields : Fields α) : Checked (Request α) :=
  let build (prompt : String) (artboard : Option (Artboard α)) (duration : Option α)
      (selected : Option (Element α)) (existing : List (Element α)) : Request α :=
    { prompt, artboard, duration := lasting duration, selected, existing }
  ((((aliased fields "userRequest" "user_request" (.valid "") promptText).map build).app
    (field fields "artboard" (.valid none) (optional (readArtboard other)))).app
    (aliased fields "animationDuration" "animation_duration" (.valid none)
      (optional number))).app
    (aliased fields "elementToAnimate" "element_to_animate" (.valid none)
      (optional (readElement other)))
    |>.app (aliased fields "existingElements" "existing_elements" (.valid [])
      (readElements other))

/-! ### Requests that are no objects -/

/-- One entry of a list of pairs: its two values. -/
def pairOf (index : Nat) (value : Value α) : Except Fault (Value α × Value α) :=
  match value.elements? with
  | some [name, v] => .ok (name, v)
  | some parts => .error (.wrongPairLength index parts.length)
  | none => .error (.notAPair index)

/-- The fields that a list of pairs gives; names that are no texts are dropped. -/
def ofPairs (seen : Fields α) (index : Nat) : List (Value α) → Except Fault (Fields α)
  | [] => .ok seen
  | v :: rest => do
    let (name, value) ← pairOf index v
    if name.isContainer then throw (.notHashable name.kind)
    let seen := match name with
      | .text s => Fields.set seen s value
      | _ => seen
    ofPairs seen (index + 1) rest

/-- The fields of a request given as any value. Whatever counts as false is an empty request. -/
def fieldsOf (value : Value α) : Except Fault (Fields α) :=
  if !value.truthy then .ok []
  else match value with
    | .object fields => .ok fields
    | value =>
      match value.elements? with
      | some entries => ofPairs [] 0 entries
      | none => .error (.notIterable value.kind)

end Request

/-- Why a request is not carried out. -/
inductive Refusal where
  | fault (f : Fault)
  | issues (list : List Issue)

namespace Request

variable {α : Type} [Scalar α]

/-- The request that a value describes. -/
def ofValue (value : Value α) : Except Refusal (Request α) :=
  match fieldsOf value with
  | .error f => .error (.fault f)
  | .ok fields =>
    match read .notRecord fields with
    | .valid r => .ok r
    | .invalid is => .error (.issues is)

end Request

end Storyboard
