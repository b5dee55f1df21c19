import Storyboard.Action
import Storyboard.Value.Number
/-!
# The gate

Actions are checked one by one before they leave the compiler. What cannot be applied is dropped
and reported; a property outside its range is moved to the nearer end.
-/

namespace Storyboard

/-- The ends of a range; without an upper end it is unbounded. -/
structure Bounds (α : Type) where
  low : α
  high : Option α

namespace Bounds

variable {α : Type} [Scalar α]

/-- The end of a range that a number is beyond. -/
def beyond? (b : Bounds α) (x : α) : Option α :=
  if x < b.low then some b.low
  else b.high.filter fun high => decide (high < x)

end Bounds

/-- Why an action, or all of them, did not pass. -/
inductive Rejection where
  | notAList
  | dropped (index : Nat)
  deriving DecidableEq, Repr

/-- What the gate lets through, and what it does not. -/
structure Passage (α : Type) where
  actions : List (Value α)
  rejections : List Rejection

namespace Rejection

def tag : Rejection → String
  | notAList => "actions_not_array"
  | dropped index => "invalid_action_" ++ toString index

end Rejection

namespace Passage

variable {α : Type}

def ok (r : Passage α) : Bool := r.rejections.isEmpty

def toValue (r : Passage α) : Value α := .object [
  ("ok", .bool r.ok), ("actions", .list r.actions),
  ("errors", .list (r.rejections.map fun e => .text e.tag))]

end Passage

namespace Gate

variable {α : Type} [Scalar α]

/-- The properties that keyframes can move. -/
def animatable : List String := [
  "x", "y", "rotation", "scale", "skewX", "skewY", "opacity", "fill", "stroke", "strokeWidth",
  "width", "height", "rx", "ry", "r", "d", "text", "fontSize", "letterSpacing", "lineHeight",
  "motionPath", "motionPathStart", "motionPathEnd", "motionPathOffsetX", "motionPathOffsetY",
  "strokeDasharray", "strokeDashoffset", "drawStartPercent", "drawEndPercent", "textPath",
  "textPathStartOffset", "textDecoration"]

/-- The properties between zero and one. -/
def shares : List String := [
  "opacity", "drawStartPercent", "drawEndPercent", "motionPathStart", "motionPathEnd",
  "textPathStartOffset"]

/-- The range of a property; most have none. -/
def bounds? (name : String) : Option (Bounds α) :=
  if shares.contains name then some ⟨0.0, some 1.0⟩
  else if name = "scale" then some ⟨0.01, none⟩
  else if name = "strokeWidth" then some ⟨0.0, none⟩
  else if name = "fontSize" then some ⟨1.0, none⟩
  else none

/-- A property moved into its range. Only finite numbers are moved. -/
def clampProperty (name : String) (value : Value α) : Except Fault (Value α) :=
  value.finite?.map fun x? =>
    match x?, bounds? name with
    | some x, some b => ((b.beyond? x).map Value.real).getD value
    | _, _ => value

/-- Properties moved into their ranges. -/
def clampFields : Fields α → Except Fault (Fields α)
  | [] => .ok []
  | (name, value) :: rest => do
    let value ← clampProperty name value
    let rest ← clampFields rest
    return (name, value) :: rest

/-- A text that is not blank. -/
def isNamed : Option (Value α) → Bool
  | some (.text s) => !(Text.trimBy Text.isBlank s.toList).isEmpty
  | _ => false

/-- A text, nothing, or absent. -/
def isOptionalText : Option (Value α) → Bool
  | none | some .null | some (.text _) => true
  | _ => false

/-- Membership of a field in a set of names. Lists and objects cannot be looked up. -/
def isOneOf (names : List String) : Option (Value α) → Except Fault Bool
  | some (.text s) => .ok (names.contains s)
  | some v => if v.isContainer then .error (.notHashable v.kind) else .ok false
  | none => .ok false

def passElement (payload : Fields α) : Except Fault (Option (Value α)) := do
  if !(← isOneOf (ElementKind.inventory.map ElementKind.name) (Fields.get? payload "type")) then
    return none
  match Fields.get? payload "props" with
  | some (.object props) =>
    if !isNamed (Fields.get? props "id") then return none
    if !isOptionalText (Fields.get? payload "targetParentId") then return none
    let props ← clampFields props
    return some (.object (Fields.set payload "props" (.object props)))
  | _ => return none

def passUpdate (payload : Fields α) : Except Fault (Option (Value α)) := do
  if !isNamed (Fields.get? payload "id") then return none
  match Fields.get? payload "props" with
  | some (.object props) =>
    let props ← clampFields props
    return some (.object (Fields.set payload "props" (.object props)))
  | _ => return none

def passKeyframe (payload : Fields α) : Except Fault (Option (Value α)) := do
  if !isNamed (Fields.get? payload "elementId") then return none
  if !(← isOneOf animatable (Fields.get? payload "property")) then return none
  let name := ((Fields.get? payload "property").bind Value.text?).getD ""
  match ← ((Fields.get? payload "time").getD .null).finite? with
  | none => return none
  | some time =>
    if time < 0.0 then return none
    match Fields.get? payload "value" with
    | none => return none
    | some value =>
      if !isOptionalText (Fields.get? payload "easing") then return none
      let value ← clampProperty name value
      return some (.object (Fields.set payload "value" value))

/-- A finite number that a test accepts. -/
def passNumber (accepts : α → Bool) (payload : Value α) : Except Fault (Option (Value α)) :=
  payload.finite?.map fun x? => (x?.filter accepts).map fun _ => payload

def positive (x : α) : Bool := !(decide (x ≤ 0.0))
def nonnegative (x : α) : Bool := !(decide (x < 0.0))

def passReference (payload : Fields α) : Option (Value α) :=
  if isNamed (Fields.get? payload "elementId") then some (.object payload) else none

def passId (payload : Value α) : Option (Value α) :=
  if isNamed (some payload) then some payload else none

/-- The payload of an action as it passes. -/
def passPayload (name : ActionName) (payload : Value α) : Except Fault (Option (Value α)) :=
  match name, payload with
  | .addElement, .object fields => passElement fields
  | .updateElement, .object fields => passUpdate fields
  | .setArtboard, .object fields => .ok (some (.object fields))
  | .addKeyframe, .object fields => passKeyframe fields
  | .group, .object fields | .reparent, .object fields => .ok (passReference fields)
  | .setDuration, v | .setSpeed, v => passNumber positive v
  | .setTime, v => passNumber nonnegative v
  | .setPlaying, .bool b => .ok (some (.bool b))
  | .toFront, v | .toBack, v | .forward, v | .backward, v => .ok (passId v)
  | _, _ => .ok none

/-- An action as it passes; nothing when it cannot be applied. -/
def pass (action : Value α) : Except Fault (Option (Value α)) :=
  match action with
  | .object fields =>
    match ActionName.ofValue? action, Fields.get? fields "payload" with
    | some name, some payload =>
      (passPayload name payload).map fun passed? =>
        passed?.map fun passed => .object (Fields.set fields "payload" passed)
    | _, _ => .ok none
  | _ => .ok none

/-- Passes actions one by one, the first of them at `index`. -/
def passFrom (index : Nat) : List (Value α) → Except Fault (Passage α)
  | [] => .ok ⟨[], []⟩
  | a :: rest => do
    let passed? ← pass a
    let later ← passFrom (index + 1) rest
    match passed? with
    | some passed => return ⟨passed :: later.actions, later.rejections⟩
    | none => return ⟨later.actions, .dropped index :: later.rejections⟩

def passAll (actions : List (Value α)) : Except Fault (Passage α) := passFrom 0 actions

/-- Passes a value that has to be a list of actions. -/
def passValue (value : Value α) : Except Fault (Passage α) :=
  match value with
  | .list actions => passAll actions
  | _ => .ok ⟨[], [.notAList]⟩

end Gate

end Storyboard
