import Storyboard.Compiler
import Storyboard.Contract
import Storyboard.Value.Reader
/-!
# The service

The two routes of the editor's gateway: one answers a request, the other checks actions. A reply
has a status and a content, and says which counters it moved.
-/

namespace Storyboard

namespace Service

/-- What a call brings: a value, or a text that should denote one. -/
inductive Body (α : Type) where
  | value (v : Value α)
  | text (s : String)

/-- A call of a route. -/
structure Call (α : Type) where
  route : String
  body : Body α

/-- How a request was answered, for the counters. -/
inductive Label where
  | ok | empty | safeScene | failure
  deriving DecidableEq, Repr

/-- What a reply holds. -/
inductive Content (α : Type) where
  | value (v : Value α)
  | plain (s : String)
  | issues (list : List Issue)

/-- A reply, and the counters that it moved. -/
structure Reply (α : Type) where
  status : Nat
  content : Content α
  outcome : Option Label := none
  drops : Nat := 0

def Label.name : Label → String
  | ok => "ok"
  | empty => "empty"
  | safeScene => "safe_scene"
  | failure => "failure"

namespace Reply

variable {α : Type}

/-- The counters that a reply moved, by name. -/
def counters (r : Reply α) : List (String × Nat) :=
  (match r.outcome with
    | some label => [(label.name, 1)]
    | none => [])
    ++ (if r.drops = 0 then [] else [("drops", r.drops)])

def internalError : Reply α := { status := 500, content := .plain "Internal Server Error" }

def detail (status : Nat) (v : Value α) : Reply α :=
  { status, content := .value (.object [("detail", v)]) }

/-- What is wrong with the body of a call. -/
def unprocessable (issues : List Issue) : Reply α :=
  { status := 422, content := .issues (issues.map (Issue.under (.name "body"))) }

def notFound : Reply α := detail 404 (.text "Not Found")

variable [Scalar α]

/-- A value as a reply; one with an infinite or undefined number cannot be written. -/
def ofValue (v : Value α) : Reply α :=
  if v.isFinite then { status := 200, content := .value v } else internalError

end Reply

variable {α : Type} [Scalar α]

/-- The value that a body denotes. -/
def received (body : Body α) : Except (Reply α) (Value α) :=
  let present (v : Value α) : Except (Reply α) (Value α) :=
    if v.kind = .null then .error (.unprocessable [⟨[], .missing⟩]) else .ok v
  match body with
  | .value v => present v
  | .text s =>
    if s = "" then .error (.unprocessable [⟨[], .missing⟩])
    else match Value.Reader.read? s with
      | none => .error (.unprocessable [⟨[], .malformed⟩])
      | some v =>
        if Value.Reader.hasLongInteger v then
          .error (.detail 400 (.text "There was an error parsing the body"))
        else present v

/-- The label of an answer that is not the failure. -/
def labelOf (o : Outcome α) : Label :=
  if o.summary = Outcome.safeSummary then .safeScene
  else if o.actions.isEmpty then .empty
  else .ok

def failed : Reply α :=
  { status := 500, content := .value Outcome.failure.toValue, outcome := some .failure }

/-- The reply to a request that was read. -/
def generate (settings : Settings α) (r : Request α) : Reply α :=
  if settings.maxPromptChars < r.prompt.length then
    .detail 422 (.object [("error", .text "prompt_too_long"),
      ("max_chars", .int settings.maxPromptChars)])
  else
    let o := Compiler.answer settings r
    if o.summary = Outcome.failureSummary && o.actions.isEmpty then failed
    else if Contract.keeps o.toValue then
      { Reply.ofValue o.toValue with outcome := some (labelOf o) }
    else failed

/-- The reply to actions that are to be checked. -/
def validate (actions : List (Value α)) : Reply α :=
  match Gate.passAll actions with
  | .error _ => .internalError
  | .ok passed => { Reply.ofValue passed.toValue with drops := passed.rejections.length }

/-- The actions of a body; without any, none. -/
def readActions (fields : Fields α) : Checked (List (Value α)) :=
  Request.field fields "actions" (.valid []) fun v =>
    match v with
    | .list actions => .valid actions
    | _ => .issue .notList

/-- Replies to what a body is read as, or with all that is wrong with it. -/
def replying {β : Type} (body : Value α) (read : Fields α → Checked β) (reply : β → Reply α) :
    Reply α :=
  match body with
  | .object fields =>
    match read fields with
    | .valid b => reply b
    | .invalid issues => .unprocessable issues
  | _ => .unprocessable [⟨[], .notSource⟩]

/-- The reply to a call. -/
def call (settings : Settings α) (c : Call α) : Reply α :=
  if c.route = "generate" then
    match received c.body with
    | .error reply => reply
    | .ok body => replying body (Request.read .notSource) (generate settings)
  else if c.route = "validate" then
    match received c.body with
    | .error reply => reply
    | .ok body => replying body readActions validate
  else .notFound

end Service

end Storyboard
