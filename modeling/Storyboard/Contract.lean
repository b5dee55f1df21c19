import Storyboard.Contract.Schema
import Storyboard.Gate
/-!
# The contract

What the editor can rely on: the schema of an action and the schema of a whole answer.
-/

namespace Storyboard

/-- A schema under the name that its violations are reported with. -/
structure Contract (α : Type) where
  name : String
  schema : Schema α

/-- The order of paths: step by step, a shorter path before its continuations. -/
def Step.precedes : List Step → List Step → Bool
  | [], _ => true
  | _ :: _, [] => false
  | a :: as, b :: bs =>
    match a, b with
    | .name s, .name t => if s = t then precedes as bs else decide (s < t)
    | .index m, .index n => if m = n then precedes as bs else decide (m < n)
    | .index _, .name _ => true
    | .name _, .index _ => false

namespace Contract

variable {α : Type} [Scalar α]

open Schema

/-- A field that has to be there and hold a text that is not empty. -/
def someText : Schema α := all [type [.string], nonEmpty]

def numberFrom (low : Value α) (more : List (Schema α) := []) : Schema α :=
  all (type [.number] :: minimum low :: more)

/-- What the payload has to be when the action has one of some names. -/
def payloadOf (names : List ActionName) (payload : Schema α) : Schema α :=
  given (properties [("type", oneOf (names.map ActionName.text))])
    (properties [("payload", payload)])

def element : Schema α := all [
  type [.object],
  required ["type", "props"],
  properties [
    ("type", oneOf (ElementKind.inventory.map ElementKind.name)),
    ("props", all [
      type [.object],
      required ["id"],
      properties [
        ("id", someText),
        ("opacity", numberFrom (.int 0) [maximum (.int 1)]),
        ("scale", numberFrom (.real 0.01)),
        ("strokeWidth", numberFrom (.int 0)),
        ("fontSize", numberFrom (.int 1))]]),
    ("targetParentId", type [.string, .null])]]

def update : Schema α := all [
  type [.object],
  required ["id", "props"],
  properties [("id", someText), ("props", type [.object])]]

def keyframe : Schema α := all [
  type [.object],
  required ["elementId", "property", "time", "value"],
  properties [
    ("elementId", someText), ("property", someText), ("time", numberFrom (.int 0)),
    ("easing", type [.string])]]

def reference : Schema α := all [
  type [.object],
  required ["elementId"],
  properties [("elementId", someText)]]

/-- The contract of an action. -/
def action : Contract α where
  name := "types/ai_action_v1.schema.json"
  schema := all [
    type [.object],
    required ["type", "payload"],
    properties [("type", oneOf (ActionName.inventory.map ActionName.text))],
    payloadOf [.addElement] element,
    payloadOf [.updateElement] update,
    payloadOf [.setArtboard] (type [.object]),
    payloadOf [.addKeyframe] keyframe,
    payloadOf [.setDuration, .setSpeed] (all [type [.number], above (.int 0)]),
    payloadOf [.setTime] (numberFrom (.int 0)),
    payloadOf [.setPlaying] (type [.boolean]),
    payloadOf [.group, .reparent] reference,
    payloadOf [.toFront, .toBack, .forward, .backward] (type [.string])]

def planStep : Schema α := all [
  type [.object],
  required ["title", "rationale", "actions"],
  properties [
    ("title", type [.string]), ("rationale", type [.string]), ("actions", type [.array])]]

def plan : Schema α := all [
  type [.object],
  required ["summary", "steps"],
  properties [
    ("summary", type [.string]), ("steps", all [type [.array], items planStep])]]

/-- The contract of an answer. -/
def answer : Contract α where
  name := "types/generate_response_v1.schema.json"
  schema := all [
    type [.object],
    required ["summary", "actions"],
    properties [
      ("summary", type [.string]),
      ("actions", all [type [.array], items (all [
        type [.object],
        required ["type", "payload"],
        properties [("type", type [.string])]])]),
      ("plan", plan)]]

/-- The breaches of a contract, by their place; those of one place in the order of the rules. -/
def violations (c : Contract α) (v : Value α) : List (Breach α) :=
  (c.schema.breaches v).mergeSort fun a b => Step.precedes a.path b.path

/-- The wording of a violated contract. -/
def report (c : Contract α) (vs : List (Breach α)) : String :=
  "Schema validation failed for " ++ c.name ++ ": " ++ toString vs.length ++ " issue(s)"

/-- An answer and each of its actions keep their contracts. -/
def keeps (v : Value α) : Bool :=
  answer.schema.accepts v
    && (((v.field? "actions").bind Value.items?).getD []).all action.schema.accepts

end Contract

end Storyboard
