import Storyboard.Gate
import Storyboard.Placeholder
import Storyboard.Plan
/-!
# Quality

Checks on a whole sequence of actions: every reference is to an element that is known by then,
ids are new and rising, values are in range and keyframes last long enough.
-/

namespace Storyboard

/-- The checks that a sequence of actions can fail. -/
inductive Check where
  | present | unique | monotonic | resolved | inRange | timed
  deriving DecidableEq, Repr

/-- The values that are in a set. -/
structure Membership (α : Type) where
  items : List (Value α)

namespace Membership

variable {α : Type} [Scalar α]

/-- The set of what a value is made of. Lists and objects cannot be members. -/
def ofValue (value : Value α) : Except Fault (Membership α) :=
  match value.elements? with
  | none => .error (.notIterable value.kind)
  | some items =>
    match items.find? Value.isContainer with
    | some v => .error (.notHashable v.kind)
    | none => .ok ⟨items⟩

def insert (m : Membership α) (v : Value α) : Membership α := ⟨v :: m.items⟩

/-- Membership of a value; lists and objects cannot be looked up. -/
def holds (m : Membership α) (v : Value α) : Except Fault Bool :=
  if v.isContainer then .error (.notHashable v.kind) else .ok (v.isIn m.items)

end Membership

namespace Check

/-- The names of a check when it is passed and when it is failed. -/
def names : Check → String × String
  | present => ("actions_present", "no_actions")
  | unique => ("element_ids_unique", "duplicate_element_ids")
  | monotonic => ("placeholder_ids_monotonic", "placeholder_ids_not_monotonic")
  | resolved => ("references_resolved", "unresolved_references")
  | inRange => ("values_in_range", "values_out_of_range")
  | timed => ("keyframe_times_valid", "keyframe_times_invalid")

end Check

namespace Quality

variable {α : Type} [Scalar α]

/-- What a sequence of actions has shown so far. -/
structure Survey (α : Type) where
  known : Membership α
  /-- The ids of added elements, the last one first. -/
  added : List String := []
  unresolved : Bool := false
  outOfRange : Bool := false
  untimed : Bool := false
  times : List α := []

/-- A property is in its range; what is no finite number is. -/
def isInRange (name : String) (value : Value α) : Except Fault Bool :=
  value.finite?.map fun x? =>
    match x?, Gate.bounds? name with
    | some x, some b => (b.beyond? x).isNone
    | _, _ => true

def allInRange : Fields α → Except Fault Bool
  | [] => .ok true
  | (name, value) :: rest => do
    let here ← isInRange name value
    let later ← allInRange rest
    return here && later

/-- An absent field counts as null. -/
def fieldOf (fields : Fields α) (name : String) : Value α := (Fields.get? fields name).getD .null

/-- A field that has to be an object; anything else is empty. -/
def objectIn (fields : Fields α) (name : String) : Fields α :=
  ((Fields.get? fields name).bind Value.fields?).getD []

/-- The payload of an action; anything but an object is empty. -/
def payloadOf (action : Value α) : Fields α :=
  ((action.field? "payload").bind Value.fields?).getD []

def surveyElement (s : Survey α) (payload : Fields α) : Except Fault (Survey α) := do
  let props := objectIn payload "props"
  let parent := fieldOf payload "targetParentId"
  let resolved ← if parent.kind = .null then .ok true else s.known.holds parent
  let ranged ← allInRange props
  let s := { s with
    unresolved := s.unresolved || !resolved
    outOfRange := s.outOfRange || !ranged }
  match Fields.get? props "id" with
  | some (.text id) => return { s with known := s.known.insert (.text id), added := id :: s.added }
  | _ => return s

def surveyUpdate (s : Survey α) (payload : Fields α) : Except Fault (Survey α) := do
  let resolved ← s.known.holds (fieldOf payload "id")
  let ranged ← allInRange (objectIn payload "props")
  return { s with
    unresolved := s.unresolved || !resolved
    outOfRange := s.outOfRange || !ranged }

def surveyKeyframe (s : Survey α) (payload : Fields α) : Except Fault (Survey α) := do
  let resolved ← s.known.holds (fieldOf payload "elementId")
  let name := ((Fields.get? payload "property").getD (.text "")).display
  let ranged ← isInRange name (fieldOf payload "value")
  let time? ← (fieldOf payload "time").finite?
  let s := { s with
    unresolved := s.unresolved || !resolved
    outOfRange := s.outOfRange || !ranged }
  match time?.filter Gate.nonnegative with
  | some time => return { s with times := time :: s.times }
  | none => return { s with untimed := true }

def surveyAction (s : Survey α) (action : Value α) : Except Fault (Survey α) :=
  match ActionName.ofValue? action with
  | some .addElement => surveyElement s (payloadOf action)
  | some .updateElement => surveyUpdate s (payloadOf action)
  | some .addKeyframe => surveyKeyframe s (payloadOf action)
  | _ => .ok s

def surveyAll (s : Survey α) : List (Value α) → Except Fault (Survey α)
  | [] => .ok s
  | a :: rest => do surveyAll (← surveyAction s a) rest

/-- The digits of an id that is a placeholder and nothing else; a line end may follow. -/
def placeholderDigits? (id : String) : Option (List Char) :=
  match Placeholder.at? id.toList with
  | some (ds, []) | some (ds, ['\n']) => some ds
  | _ => none

/-- The numbers of the ids that are placeholders. -/
def placeholderNumbers : List String → Except Fault (List Nat)
  | [] => .ok []
  | id :: rest =>
    match placeholderDigits? id with
    | none => placeholderNumbers rest
    | some ds => do
      let n ← Placeholder.number ds
      let ns ← placeholderNumbers rest
      return n :: ns

def isRising : List Nat → Bool
  | a :: b :: rest => decide (a < b) && isRising (b :: rest)
  | _ => true

def isDistinct : List String → Bool
  | [] => true
  | id :: rest => !rest.contains id && isDistinct rest

end Quality

/-- The result of all checks. The span of the keyframes is only warned about. -/
structure Assessment where
  results : List (Check × Bool)
  /-- The keyframes last long enough; nothing is said without keyframes. -/
  span : Option Bool
  deriving DecidableEq, Repr

namespace Assessment

def failures (a : Assessment) : List Check := (a.results.filter fun (_, ok) => !ok).map (·.1)

def passed (a : Assessment) : List Check := (a.results.filter (·.2)).map (·.1)

def ok (a : Assessment) : Bool := a.failures.isEmpty

def checkNames (a : Assessment) : List String :=
  a.passed.map (·.names.1)
    ++ (if a.span = some true then ["animation_span_meets_floor"] else [])

def failureNames (a : Assessment) : List String := a.failures.map (·.names.2)

def warningNames (a : Assessment) : List String :=
  match a.span with
  | none => ["no_keyframes"]
  | some false => ["animation_span_short"]
  | some true => []

def toValue {α : Type} (a : Assessment) : Value α :=
  let texts (ss : List String) : Value α := .list (ss.map .text)
  .object [("ok", .bool a.ok), ("checks", texts a.checkNames),
    ("warnings", texts a.warningNames), ("failures", texts a.failureNames)]

end Assessment

namespace Quality

variable {α : Type} [Scalar α]

/-- What a survey comes to. -/
def conclude (present : Bool) (s : Survey α) : Except Fault Assessment := do
  let added := s.added.reverse
  let numbers ← placeholderNumbers added
  let span := if s.times.isEmpty then none
    else some (s.times.any fun t => decide (Plan.minDuration ≤ t))
  return { span
           results := [(.present, present), (.unique, isDistinct added),
             (.monotonic, isRising numbers), (.resolved, !s.unresolved),
             (.inRange, !s.outOfRange), (.timed, !s.untimed)] }

/-- Checks a sequence of actions over a canvas with known ids. -/
def assess (actions : Value α) (known : Value α) : Except Fault Assessment := do
  let known ← Membership.ofValue known
  let actions := (actions.items?).getD []
  let s ← surveyAll { known } actions
  conclude (!actions.isEmpty) s

end Quality

end Storyboard
