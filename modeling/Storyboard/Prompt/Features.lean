import Storyboard.Prompt.Keyword
import Storyboard.Prompt.Colour
import Storyboard.Prompt.Measure
import Storyboard.Prompt.Quotation
/-!
# Features of a prompt

Everything that later stages want to know about a prompt: the keywords it mentions, its colour,
its quantities and its quoted text.
-/

namespace Storyboard

/-- What a prompt says. -/
structure Features (α : Type) where
  /-- The prompt in small letters, without blanks at its ends. -/
  text : String
  raw : String
  mentions : Keyword → Bool
  colour : Option String
  opacity : Option α
  strokeWidth : Option α
  count : Nat
  content : Option String
  fontSize : Option α
  duration : Option α
  playbackSpeed : Option α

namespace Features

variable {α : Type}

/-- The form of a prompt that is searched. -/
def normalize (raw : String) : String := Text.trim (Text.lower raw)

/-- One of several keywords is mentioned. -/
def any (f : Features α) (ks : List Keyword) : Bool := ks.any f.mentions

def hasDirection (f : Features α) : Bool := f.any [.left, .right, .up, .down]

variable [Scalar α]

/-- Reads a prompt. A count with too many digits is the only fault. -/
def ofText (raw : String) : Except Fault (Features α) :=
  let text := normalize raw
  let cs := text.toList
  (Measure.count cs).map fun count => {
    text, raw, count
    mentions := fun k => k.isIn cs
    colour := Colour.of? raw
    opacity := Measure.opacity? cs
    strokeWidth := Measure.strokeWidth? cs
    content := Quotation.content? raw.toList cs
    fontSize := Measure.fontSize? cs
    duration := Measure.duration? cs
    playbackSpeed := Measure.playbackSpeed? cs }

end Features

end Storyboard
