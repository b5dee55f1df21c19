import Storyboard.Action
import Storyboard.Palette
import Storyboard.Request
import Storyboard.Settings
/-!
# Plans

What a request comes to: which generators it wants, for how long, in which colours and on which
artboard.
-/

namespace Storyboard

/-- A stretch of time. -/
structure Beat (α : Type) where
  start : α
  finish : α

/-- The three beats that a plan's duration is divided into. -/
structure Beats (α : Type) where
  intro : Beat α
  action : Beat α
  settle : Beat α

/-- A request with all decisions taken. -/
structure Plan (α : Type) where
  prompt : String
  features : Features α
  archetype : Archetype
  wantsCreate : Bool
  wantsScene : Bool
  wantsCharacter : Bool
  wantsPath : Bool
  wantsPhoto : Bool
  wantsLayers : Bool
  motion : MotionPreset
  style : Style
  layout : Layout
  camera : Bool
  weather : Weather
  duration : α
  beats : Beats α
  palette : Palette
  board : Artboard α
  selected : Option (Element α)
  existing : List (Element α)

variable {α : Type} [Scalar α]

def Beat.mid (b : Beat α) : α := (b.start + b.finish) / 2.0

/-- An introduction of a quarter, the action up to four fifths, and the rest to settle. -/
def Beats.ofDuration (d : α) : Beats α where
  intro := ⟨0.0, d * 0.25⟩
  action := ⟨d * 0.25, d * 0.8⟩
  settle := ⟨d * 0.8, d⟩

namespace Plan

/-- The shortest plan, in seconds. -/
def minDuration : α := 2.0

def width (p : Plan α) : α := p.board.width
def height (p : Plan α) : α := p.board.height
def minDim (p : Plan α) : α := p.board.minDim
def mentions (p : Plan α) (k : Keyword) : Bool := p.features.mentions k

/-- The address of the selected element's image. -/
def imageHref (p : Plan α) : Option String := p.selected.bind (·.href)

/-- Decides what a request wants. -/
def ofRequest (settings : Settings α) (r : Request α) : Except Fault (Plan α) :=
  (Features.ofText r.prompt).map fun f =>
    let wantsScene :=
      f.any Intent.sceneKeywords && !(f.mentions .existing && !r.existing.isEmpty)
    let wantsCharacter := f.any Intent.characterKeywords
    let imageSelected := (r.selected.map fun e => e.kind == "image").getD false
    let wantsPhoto :=
      f.mentions .photo || (imageSelected && f.any [.animate, .kenBurns, .parallax])
    let archetype := (Intent.archetypes.first? f).getD
      (if wantsScene then .genericScene else if wantsCharacter then .character else .basic)
    let duration := Scalar.max minDuration (r.duration.getD settings.duration)
    { prompt := r.prompt
      features := f
      archetype
      wantsCreate := f.any Intent.createKeywords
      wantsScene
      wantsCharacter
      wantsPath := f.any Intent.pathKeywords || (f.mentions .wavePath && !wantsCharacter)
      wantsPhoto
      wantsLayers := wantsPhoto && f.any Intent.layeredKeywords
      motion := (Intent.motions.first? f).getD .none
      style := (Intent.styles.first? f).getD .default
      layout := (Intent.layouts.first? f).getD .row
      camera := f.any Intent.cameraKeywords
      weather := (Intent.weathers.first? f).getD .none
      duration
      beats := .ofDuration duration
      palette := .resolve r.prompt (Palette.ofArchetype archetype).toList
      board := r.artboard.getD
        ⟨Scalar.ofInt settings.artboardWidth, Scalar.ofInt settings.artboardHeight⟩
      selected := r.selected
      existing := r.existing }

/-- The plan of a request given as a value. -/
def ofValue (settings : Settings α) (value : Value α) : Except Refusal (Plan α) :=
  match Request.ofValue value with
  | .error e => .error e
  | .ok r =>
    match ofRequest settings r with
    | .error f => .error (.fault f)
    | .ok p => .ok p

/-! ### Fills -/

/-- Skies are painted in gradients. -/
def smooth (p : Plan α) : Bool :=
  p.mentions .gradient || p.style == .neon || p.style == .pastel

/-- The fill of a background in the colours of a palette. -/
def backgroundIn (p : Plan α) (palette : Palette) (id : String) (angle : α) : Value α :=
  if p.smooth then Gradient.linear id palette.toList angle else .text palette.first

/-- The fill of an accent in the colours of a palette. -/
def accentIn (p : Plan α) (palette : Palette) (id : String) : Value α :=
  if p.mentions .gradient && !palette.rest.isEmpty then Gradient.radial id palette.toList.reverse
  else .text palette.last

def background (p : Plan α) (id : String) (angle : α) : Value α :=
  p.backgroundIn p.palette (id ++ "-grad") angle

def accent (p : Plan α) (id : String) : Value α := p.accentIn p.palette (id ++ "-grad")

def colour (p : Plan α) (index : Nat) (default : String) : Value α :=
  .text (p.palette.pick index default)

/-- The fills of a background and an accent in some colours; without any, only a gradient has a
fill. -/
def fillsIn (p : Plan α) (colours : List String) (id : String) (angle : α) :
    Except Fault (Value α × Value α) :=
  match Palette.ofList? colours with
  | some palette => .ok (p.backgroundIn palette id angle, p.accentIn palette id)
  | none => .error .noSuchIndex

end Plan

end Storyboard
