import Storyboard.Prompt.Features
/-!
# Intents

What a prompt is about: the archetype of a scene, a motion, a style, a layout and the weather.
Each is decided by an ordered table of keywords in which the first match wins.
-/

namespace Storyboard

inductive Archetype where
  | sunset | ocean | city | forest | mountain | desert | space | neonStudio | meadow
  | genericScene | character | basic
  deriving DecidableEq, Repr

inductive MotionPreset where
  | walk | wave | idle | bounce | spin | pulse | none
  deriving DecidableEq, Repr

inductive Style where
  | neon | pastel | minimal | bold | outline | flat | default
  deriving DecidableEq, Repr

inductive Layout where
  | row | column | grid
  deriving DecidableEq, Repr

inductive Weather where
  | rain | snow | none
  deriving DecidableEq, Repr

namespace Archetype

def name : Archetype → String
  | sunset => "sunset"
  | ocean => "ocean"
  | city => "city"
  | forest => "forest"
  | mountain => "mountain"
  | desert => "desert"
  | space => "space"
  | neonStudio => "neon-studio"
  | meadow => "meadow"
  | genericScene => "generic-scene"
  | character => "character"
  | basic => "basic"

def inventory : List Archetype :=
  [sunset, ocean, city, forest, mountain, desert, space, neonStudio, meadow, genericScene,
    character, basic]

def ofName? (s : String) : Option Archetype := inventory.find? fun a => a.name = s

end Archetype

namespace MotionPreset

def name : MotionPreset → String
  | walk => "walk"
  | wave => "wave"
  | idle => "idle"
  | bounce => "bounce"
  | spin => "spin"
  | pulse => "pulse"
  | none => "none"

end MotionPreset

namespace Style

def name : Style → String
  | neon => "neon"
  | pastel => "pastel"
  | minimal => "minimal"
  | bold => "bold"
  | outline => "outline"
  | flat => "flat"
  | default => "default"

end Style

namespace Layout

def name : Layout → String
  | row => "row"
  | column => "column"
  | grid => "grid"

def inventory : List Layout := [row, column, grid]

def ofName? (s : String) : Option Layout := inventory.find? fun l => l.name = s

end Layout

namespace Weather

def name : Weather → String
  | rain => "rain"
  | snow => "snow"
  | none => "none"

end Weather

/-- An ordered table: each result with the keywords that select it. -/
abbrev Rules (β : Type) := List (β × List Keyword)

namespace Rules

variable {α β : Type}

/-- The first result that a keyword of the prompt selects. -/
def first? (rules : Rules β) (f : Features α) : Option β :=
  (rules.find? fun (_, ks) => f.any ks).map (·.1)

end Rules

namespace Intent

def sceneKeywords : List Keyword :=
  [.scene, .sunset, .ocean, .city, .forest, .mountain, .desert, .space, .studio, .neon, .night,
    .snow, .rain, .clouds, .stars, .moon, .meadow, .lake, .river]
def characterKeywords : List Keyword := [.character, .robot, .animal]
def pathKeywords : List Keyword :=
  [.path, .blob, .spiral, .heart, .starShape, .polygon, .zigzag]
def cameraKeywords : List Keyword := [.camera, .pan, .zoom, .kenBurns, .parallax]
def createKeywords : List Keyword := [.add, .makeA, .new]
def layeredKeywords : List Keyword := [.subject, .boundingBox, .foreground, .background]

def archetypes : Rules Archetype := [
  (.sunset, [.sunset]), (.ocean, [.ocean]), (.city, [.city]), (.forest, [.forest]),
  (.mountain, [.mountain]), (.desert, [.desert]), (.space, [.space]),
  (.neonStudio, [.studio, .neon]), (.meadow, [.meadow])]

def motions : Rules MotionPreset := [
  (.walk, [.walk]), (.wave, [.wave]), (.idle, [.idle, .float]), (.bounce, [.bounce]),
  (.spin, [.spin]), (.pulse, [.pulse])]

def styles : Rules Style := [
  (.neon, [.neon]), (.pastel, [.pastel]), (.minimal, [.minimal]), (.bold, [.bold]),
  (.outline, [.outline]), (.flat, [.flat])]

def layouts : Rules Layout := [(.grid, [.grid]), (.column, [.column])]

def weathers : Rules Weather := [(.rain, [.rain]), (.snow, [.snow])]

end Intent

end Storyboard
