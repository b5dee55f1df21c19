import Storyboard.Composition
import Storyboard.Edit
import Storyboard.Figure.Motion
import Storyboard.Gate
import Storyboard.Photo
import Storyboard.Scene
import Storyboard.Shape
/-!
# The compiler

From a request to actions. A photo request is answered by a photo alone; any other by a scene, a
figure and a shape, as far as they are wanted, or else by an edit, composed with camera and
weather. Everything passes the gate. When nothing gets through, a simple scene stands in, and a
request that cannot be carried out at all gets a fixed answer.
-/

namespace Storyboard

/-- The answer to a request. -/
structure Outcome (α : Type) where
  summary : String
  actions : List (Value α)
  steps : List (PlanStep α)

namespace Outcome

variable {α : Type}

def failureSummary : String := "AI failed to process the request."
def safeSummary : String := "Generated a safe starter scene."
def unrecoverableSummary : String :=
  "Unable to generate a valid scene. Please try a simpler prompt."

/-- The answer to a request that cannot be carried out. -/
def failure : Outcome α := ⟨failureSummary, [], []⟩

/-- The answer on the wire; the plan is left out when it has no steps. -/
def toValue (o : Outcome α) : Value α :=
  .object ([("summary", .text o.summary), ("actions", .list o.actions)]
    ++ (if o.steps.isEmpty then []
      else [("plan", .object [("summary", .text o.summary),
        ("steps", .list (o.steps.map PlanStep.toValue))])]))

end Outcome

namespace Compiler

variable {α : Type} [Scalar α]

/-- A fragment as it passes the gate, and whether all of it does. -/
def gated (f : Fragment α) : Except Fault (Fragment α × Bool) :=
  (Gate.passAll f.actions).map fun passed => ({ f with actions := passed.actions }, passed.ok)

/-- A simple scene for when nothing passed; its step comes after the others. -/
def safeScene (p : Plan α) (steps : List (PlanStep α)) : Except Fault (Outcome α) :=
  (Gate.passAll ((Scene.generic p 0).fragment.actions)).map fun passed =>
    if passed.actions.isEmpty then ⟨Outcome.unrecoverableSummary, [], steps⟩
    else ⟨Outcome.safeSummary, passed.actions, steps ++ [⟨"Safe Scene", passed.actions⟩]⟩

def compilePhoto (p : Plan α) : Except Fault (Outcome α) := do
  let (f, whole) ← gated (Photo.build p 0).fragment
  let steps := [⟨f.title, f.actions⟩]
  if f.actions.isEmpty && !whole then safeScene p steps
  else return ⟨f.summary, f.actions, steps⟩

/-- The drafts of what a plan wants, each numbered from one. -/
def wanted (p : Plan α) : List (Draft α) :=
  (if p.wantsScene then (Scene.build? p 0).toList else [])
    ++ (if p.wantsCharacter then [Rig.animated p 0] else [])
    ++ (if p.wantsPath then [Shape.build p 0] else [])

/-- The drafts of a plan; an edit when it wants nothing else. -/
def drafts (p : Plan α) : Except Fault (List (Draft α)) :=
  match wanted p with
  | [] => (Edit.build p 0).map fun d => [d]
  | ds => .ok ds

/-- Fragments as they pass the gate, and whether all of them do. -/
def gatedAll : List (Draft α) → Except Fault (List (Fragment α) × Bool)
  | [] => .ok ([], true)
  | d :: rest => do
    let (f, whole) ← gated d.fragment
    let (fs, wholeRest) ← gatedAll rest
    return (f :: fs, whole && wholeRest)

def compileScene (p : Plan α) : Except Fault (Outcome α) := do
  let ds ← drafts p
  let (fragments, whole) ← gatedAll ds
  let c ← (Composition.compose p fragments 0).mapError (·.1)
  let passed ← Gate.passAll c.actions
  if passed.actions.isEmpty && !(whole && passed.ok) then safeScene p c.steps
  else return ⟨c.summary, passed.actions, c.steps⟩

/-- The answer to a plan. -/
def compile (p : Plan α) : Except Fault (Outcome α) :=
  if p.wantsPhoto then compilePhoto p else compileScene p

/-- The answer to a request, if it can be carried out. -/
def attempt (settings : Settings α) (r : Request α) : Except Fault (Outcome α) := do
  compile (← Plan.ofRequest settings r)

/-- The answer to any request. -/
def answer (settings : Settings α) (r : Request α) : Outcome α :=
  match attempt settings r with
  | .ok o => o
  | .error _ => .failure

/-- The answer to a request given as any value. -/
def generate (settings : Settings α) (request : Value α) : Outcome α :=
  match Request.ofValue request with
  | .ok r => answer settings r
  | .error _ => .failure

end Compiler

end Storyboard
