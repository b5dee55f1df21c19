import Storyboard.Camera
import Storyboard.PlanStep
/-!
# Compositions

Fragments joined into one sequence of actions. Each fragment numbers its elements from one; they
are moved on past the numbers already given out. Camera and weather are laid over the anchor,
the first fragment with a root. When the anchor has a position or scale track of its own, the
camera drives a wrapper group around it instead.
-/

namespace Storyboard

/-- Fragments joined, with the plan steps that tell which action comes from where. -/
structure Composition (α : Type) where
  summary : String
  actions : List (Value α)
  steps : List (PlanStep α)
  anchor : Option String
  issued : Nat

/-- A fragment has a root when that has an id. -/
def Fragment.root? {α : Type} (f : Fragment α) : Option String := f.root.filter (· ≠ "")

namespace Composition

variable {α : Type} [Scalar α]

def isNamed (name : ActionName) (action : Value α) : Bool :=
  ActionName.ofValue? action == some name

def isText (s : String) : Option (Value α) → Bool
  | some (.text t) => t = s
  | _ => false

/-- The keyframe is one of `id` on a property that the camera moves. -/
def drives (id : String) (action : Value α) : Except Fault Bool :=
  match action.field? "payload" with
  | some (.object payload) =>
    if isNamed .addKeyframe action && isText id (Fields.get? payload "elementId") then
      match Fields.get? payload "property" with
      | some (.text name) => .ok (Camera.properties.contains name)
      | some v => if v.isContainer then .error (.notHashable v.kind) else .ok false
      | none => .ok false
    else .ok false
  | _ => .ok false

/-- Some keyframe is one of `id` on a property that the camera moves. -/
def isDriven (id : String) : List (Value α) → Except Fault Bool
  | [] => .ok false
  | a :: rest => do if ← drives id a then return true else isDriven id rest

/-- An action with its payload placed under a parent, or under none. -/
def placeUnder (parent : Option String) (action : Value α) : Value α :=
  match action with
  | .object fields =>
    match Fields.get? fields "payload" with
    | some (.object payload) =>
      .object (Fields.set fields "payload"
        (.object (Fields.set payload "targetParentId" (.ofText? parent))))
    | _ => action
  | _ => action

/-- The action adds the element `id`. -/
def adds (id : String) (action : Value α) : Bool :=
  isNamed .addElement action
    && isText id (((action.field? "payload").bind (·.field? "props")).bind (·.field? "id"))

/-- Places the element `id` under a parent wherever it is added. -/
def reparent (id parent : String) (actions : List (Value α)) : List (Value α) :=
  actions.map fun a => if adds id a then placeUnder (some parent) a else a

/-- Where a fragment's root stands. -/
def originOf (f : Fragment α) : Except Fault (α × α) := do
  let x ← ((Fields.get? f.parts "base_x").getD (.int 0)).toScalar
  let y ← ((Fields.get? f.parts "base_y").getD (.int 0)).toScalar
  return (x, y)

/-- The first root of the fragments, when it has tracks that the camera would disturb. -/
def needsWrapper (p : Plan α) (fragments : List (Fragment α)) : Except Fault Bool :=
  match fragments.find? fun f => f.root?.isSome with
  | none => .ok false
  | some f => if p.camera then isDriven (f.root?.getD "") f.actions else .ok false

/-- What the fragments so far have come to. -/
structure Progress (α : Type) where
  issued : Nat
  parts : List (PlanStep α) := []
  summaries : List String := []
  /-- The anchor's id, and where it stands. -/
  anchor : Option (String × (α × α)) := none

/-- The actions of a fragment moved on by the numbers already given out. -/
def shifted (offset : Nat) (f : Fragment α) : Except Fault (List (Value α)) :=
  if offset = 0 then .ok f.actions else Placeholder.shiftItems offset f.actions

/-- The anchor once a fragment is joined: the first root there is. -/
def anchorAfter (s : Progress α) (f : Fragment α) : Except Fault (Option (String × (α × α))) :=
  match s.anchor, f.root? with
  | none, some root => do
    let id ← if s.issued = 0 then .ok root else Placeholder.shiftText s.issued root
    let origin ← originOf f
    return some (id, origin)
  | anchor, _ => .ok anchor

/-- Joins a fragment; the anchor's root goes under the wrapper, if there is one. A fault comes with
the last number given out before it: the fragment's numbers are taken before the anchor is found. -/
def join (wrapper : Option String) (s : Progress α) (f : Fragment α) :
    Except (Fault × Nat) (Progress α) := do
  let actions ← (shifted s.issued f).mapError (·, s.issued)
  let highest ← (Placeholder.highestItem f.actions).mapError (·, s.issued)
  let anchor ← (anchorAfter s f).mapError (·, s.issued + highest)
  let actions := match s.anchor, anchor, wrapper with
    | none, some (id, _), some parent => reparent id parent actions
    | _, _, _ => actions
  return { issued := s.issued + highest
           parts := s.parts ++ [⟨if f.title = "" then "Direct Edit" else f.title, actions⟩]
           summaries := s.summaries ++ (if f.summary = "" then [] else [f.summary])
           anchor }

/-- Joins fragments in order. -/
def joinAll (wrapper : Option String) (s : Progress α) :
    List (Fragment α) → Except (Fault × Nat) (Progress α)
  | [] => .ok s
  | f :: rest => do joinAll wrapper (← join wrapper s f) rest

/-- The wrapper group, if one is needed, takes the first number. -/
def start (wrapped : Bool) (n : Nat) : Option String × Progress α :=
  if wrapped then (some (Placeholder.id (n + 1)), { issued := n + 1 })
  else (none, { issued := n })

/-- The action that adds the wrapper group. -/
def wrapperActions (wrapper : Option String) : List (Value α) :=
  match wrapper with
  | some id => [(Action.group id 0.0 0.0 .none).toValue]
  | none => []

/-- Lays camera and weather over the joined fragments. -/
def finish (p : Plan α) (wrapper : Option String) (s : Progress α) : Composition α :=
  let anchor := s.anchor.map (·.1)
  let (driven, origin) : Option String × (α × α) := match wrapper, s.anchor with
    | some id, _ => (some id, (0.0, 0.0))
    | none, some (id, origin) => (some id, origin)
    | none, none => (none, (0.0, 0.0))
  let wrapping := wrapperActions wrapper
  let camera : List (Value α) := match driven with
    | some id => if p.camera then (Camera.motion p id origin).map Action.toValue else []
    | none => []
  let weather := (Weather.overlay p s.issued driven origin).map Action.toValue
  { summary := " ".intercalate s.summaries
    actions := wrapping ++ s.parts.flatMap (·.actions) ++ camera ++ weather
    steps := s.parts
      ++ (if camera.isEmpty then [] else [⟨"Camera: Pan/Zoom", wrapping ++ camera⟩])
      ++ (if weather.isEmpty then [] else [⟨"Weather: " ++ p.weather.name, weather⟩])
    anchor
    issued := Weather.issued p s.issued }

/-- The composition of some fragments, numbered from the one after `n` on. A fault comes with the
last number given out before it. -/
def compose (p : Plan α) (fragments : List (Fragment α)) (n : Nat) :
    Except (Fault × Nat) (Composition α) := do
  let wrapped ← (needsWrapper p fragments).mapError (·, n)
  let (wrapper, s) := start wrapped n
  Placeholder.supply n s.issued
  let s ← joinAll wrapper s fragments
  Placeholder.supply s.issued (Weather.issued p s.issued)
  return finish p wrapper s

end Composition

end Storyboard
