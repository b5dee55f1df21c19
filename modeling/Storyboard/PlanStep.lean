import Storyboard.Text.Character
import Storyboard.Value
/-!
# Plan steps

The plan that goes with an answer: a title for each group of actions, with its rationale.
-/

namespace Storyboard

/-- A step of the plan that goes with a composition. -/
structure PlanStep (α : Type) where
  title : String
  actions : List (Value α)

namespace PlanStep

variable {α : Type}

/-- What a step does, by its title or by the part of it before a colon. -/
def rationales : List (String × String) := [
  ("Scene", "Compose the base environment and layers."),
  ("Character", "Add a rigged character and motion preset."),
  ("Path", "Generate path-based shapes and draw effects."),
  ("Camera", "Add cinematic camera motion."),
  ("Weather", "Overlay atmospheric motion."),
  ("Direct Edit", "Apply changes to existing canvas elements."),
  ("Photo: Ken Burns", "Apply cinematic pan/zoom to the photo."),
  ("Photo: Subject Layers", "Animate background + subject layers."),
  ("Safe Scene", "Fallback scene generated after validation.")]

def listed? (title : String) : Option String :=
  (rationales.find? fun (t, _) => t = title).map (·.2)

/-- The part of a title before its first colon, without blanks around it. -/
def topic (title : String) : String :=
  Text.trim (String.ofList (title.toList.takeWhile (· ≠ ':')))

def rationale (title : String) : String := ((listed? title).or (listed? (topic title))).getD ""

def toValue (s : PlanStep α) : Value α := .object [
  ("title", .text s.title), ("rationale", .text (rationale s.title)),
  ("actions", .list s.actions)]

end PlanStep

end Storyboard
