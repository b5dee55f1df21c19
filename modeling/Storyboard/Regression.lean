import Storyboard.Regression.Options
import Storyboard.Score
import Storyboard.Service
import Storyboard.Value.Writer
/-!
# Regression

A fixed suite of prompts, each scored by what it is expected to give.
-/

namespace Storyboard.Regression

variable {α : Type} [Scalar α]

/-- A prompt, what it should give, and what the editor shows when it is asked. -/
structure Case (α : Type) where
  name : Value α
  prompt : Value α
  expect : Value α
  context : Fields α

/-- The result of a case. -/
structure Row (α : Type) where
  name : Value α
  prompt : Value α
  status : Nat
  summary : Value α
  score : Score α
  assessment : Assessment

/-- The results of a suite. -/
structure Report (α : Type) where
  rows : List (Row α)
  percent : Int

namespace Case

/-- The request of a case: its context over an empty canvas. -/
def request (c : Case α) : Fields α :=
  Fields.setAll [
    ("userRequest", c.prompt),
    ("artboard", .object [("width", .int 800), ("height", .int 600)]),
    ("animationDuration", .int 5),
    ("elementToAnimate", .null),
    ("existingElements", .list [])] c.context

/-- The ids of the elements on the canvas, as texts. -/
def knownIds (c : Case α) : Except Fault (List (Value α)) :=
  let canvas := (Fields.get? c.request "existingElements").getD (.list [])
  match canvas.elements? with
  | none => .error (.notIterable canvas.kind)
  | some elements => elements.mapM fun e =>
      match e.field? "id" with
      | some id => .ok (.text id.display)
      | none => .error (.missingPart "id")

def make (name prompt : String) (expect : List Expectation) (context : Fields α := []) :
    Case α where
  name := .text name
  prompt := .text prompt
  expect := .object (expect.map fun e => (e.name, .bool true))
  context

end Case

/-- A canvas with one image, which is selected. -/
def photoContext : Fields α :=
  let image : Value α := .object [
    ("id", .text "image-1"), ("type", .text "image"), ("x", .int 120), ("y", .int 80),
    ("width", .int 420), ("height", .int 320), ("opacity", .int 1), ("rotation", .int 0),
    ("scale", .int 1)]
  [("elementToAnimate", image), ("existingElements", .list [image])]

/-- The suite. -/
def suite : List (Case α) := [
  .make "scene-character" "A robot waves in a neon room" [.character],
  .make "path-blob" "Create a blob path with curves" [.path],
  .make "path-spiral" "Draw a spiral path" [.path],
  .make "scene-forest" "A forest landscape with trees" [],
  .make "scene-space" "Space scene with stars and a planet" [],
  .make "photo-tier1" "Animate photo with Ken Burns" [.photo] photoContext,
  .make "photo-tier2" "Subject selection photo with bounding box" [.photo] photoContext,
  .make "character-walk" "A character walks across the screen" [.character]]

/-- The content of a reply as a value; what is no value is null. -/
def contentOf (r : Service.Reply α) : Except Fault (Value α) :=
  match r.content with
  | .value v => .ok v
  | .plain _ => .error .unwritable
  | .issues _ => .ok (.object [])

def runCase (settings : Settings α) (c : Case α) : Except Fault (Row α) := do
  let reply := Service.call settings ⟨"generate", .value (.object c.request)⟩
  let body ← contentOf reply
  let actions : Value α := .list (((body.field? "actions").bind Value.items?).getD [])
  let known : Value α := .list (← c.knownIds)
  let score ← Score.ofActions actions c.expect known
  let assessment ← Quality.assess actions known
  return { name := c.name, prompt := c.prompt, status := reply.status
           summary := (body.field? "summary").getD .null, score, assessment }

namespace Row

/-- A case passes when it is answered, scored and free of failed checks. -/
def passed (r : Row α) : Bool := r.status == 200 && r.score.passed && r.assessment.ok

def outcome (r : Row α) : String := if r.passed then "pass" else "fail"

def toValue (r : Row α) : Value α := .object [
  ("name", r.name), ("prompt", r.prompt), ("status_code", .int r.status),
  ("summary", r.summary), ("elements", .int r.score.analysis.elements),
  ("keyframes", .int r.score.analysis.keyframes), ("score", .int r.score.points),
  ("missed", .list (r.score.missed.map fun e => .text e.name)),
  ("quality_failures", .list (r.assessment.failureNames.map .text)),
  ("outcome", .text r.outcome)]

def lines (r : Row α) : List String := [
  "[" ++ r.outcome ++ "] " ++ r.name.display ++ ": " ++ r.summary.display,
  "  elements=" ++ toString r.score.analysis.elements
    ++ " keyframes=" ++ toString r.score.analysis.keyframes
    ++ " score=" ++ toString r.score.points ++ "/" ++ toString Score.full]

end Row

/-- The points of all rows together. -/
def pointsOf (rows : List (Row α)) : Nat := rows.foldl (fun n row => n + row.score.points) 0

namespace Report

def failures (r : Report α) : Nat := (r.rows.filter fun row => !row.passed).length

def points (r : Report α) : Nat := pointsOf r.rows

def full (r : Report α) : Nat := Score.full * r.rows.length

def toValue (r : Report α) : Value α := .object [
  ("summary", .object [
    ("total_cases", .int r.rows.length), ("failures", .int r.failures),
    ("score", .int r.points), ("max_score", .int r.full), ("percent", .int r.percent)]),
  ("cases", .list (r.rows.map Row.toValue))]

def lines (r : Report α) : List String :=
  r.rows.flatMap Row.lines ++ ["",
    "regression score: " ++ toString r.points ++ "/" ++ toString r.full ++ " ("
      ++ toString r.percent ++ "%)"]

end Report

/-- A share in percent, rounded; a half goes to the even neighbour. -/
def percentOf (α : Type) [Scalar α] (points full : Nat) : Int :=
  let share : α := Scalar.ofNat points / Scalar.ofNat full * 100.0
  ((Scalar.toRat? share).map Decimal.nearest).getD 0

def runAll (settings : Settings α) : List (Case α) → Except Fault (List (Row α))
  | [] => .ok []
  | c :: rest => do
    let row ← runCase settings c
    let rows ← runAll settings rest
    return row :: rows

/-- Runs a suite, which must not be empty. -/
def run (settings : Settings α) (cases : List (Case α)) : Except Fault (Report α) := do
  let rows ← runAll settings cases
  if rows.isEmpty then throw .noCases
  return { rows, percent := percentOf α (pointsOf rows) (Score.full * rows.length) }

/-- What a command comes to. -/
structure Result where
  code : Nat
  output : String := ""
  /-- A file to write, with its text. -/
  file : Option (String × String) := none

def usage : String := "\n".intercalate [
  "usage: regression [-h] [--base-url BASE_URL] [--out OUT] [--inprocess]", "",
  "Score the compiler against the fixed regression prompt suite.", "",
  "options:",
  "  -h, --help           show this help message and exit",
  "  --base-url BASE_URL",
  "  --out OUT            Optional path for the full JSON report.",
  "  --inprocess          Run the gateway in-process instead of over HTTP.", ""]

/-- Carries out a command line over some cases. There is no server to run against. -/
def command (settings : Settings α) (cases : List (Case α)) (args : List String) :
    Except Fault Result :=
  match Options.ofArgs args with
  | .misused => .ok { code := 2 }
  | .help => .ok { code := 0, output := usage }
  | .run o =>
    if !o.inProcess then .ok { code := 2 }
    else do
      let report ← run settings cases
      let written := if o.out = "" then [] else ["report_written: " ++ o.out]
      return {
        code := if report.failures = 0 then 0 else 1
        output := "\n".intercalate (report.lines ++ written ++ [""])
        file := if o.out = "" then none else some (o.out, Value.Writer.write 0 report.toValue) }

end Storyboard.Regression
