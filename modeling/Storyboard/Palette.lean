import Storyboard.Intent
/-!
# Palettes

One to six colours for a scene: those that the prompt names, or else those of its archetype.
-/

namespace Storyboard

/-- A row of colours that is never empty. -/
structure Palette where
  first : String
  rest : List String
  deriving DecidableEq, Repr

namespace Palette

def toList (p : Palette) : List String := p.first :: p.rest

def ofList? : List String → Option Palette
  | [] => none
  | c :: cs => some ⟨c, cs⟩

def last (p : Palette) : String := p.rest.getLast?.getD p.first

/-- The colour at a place, or a stand-in when the palette is shorter. -/
def pick (p : Palette) (index : Nat) (default : String) : String :=
  p.toList[index]?.getD default

/-- The colour at a place, counted around. -/
def cycle (p : Palette) (index : Nat) : String :=
  p.pick (index % (p.rest.length + 1)) p.first

/-- The most colours that a prompt gives a palette. -/
def limit : Nat := 6

def generic : Palette := ⟨"#3b82f6", ["#22c55e", "#f97316"]⟩

/-- The colours of an archetype. -/
def ofArchetype : Archetype → Palette
  | .sunset => ⟨"#f97316", ["#fbbf24", "#fb7185", "#0f172a"]⟩
  | .ocean => ⟨"#0ea5e9", ["#38bdf8", "#0f172a", "#f8fafc"]⟩
  | .city => ⟨"#0f172a", ["#1f2937", "#38bdf8", "#f8fafc"]⟩
  | .forest => ⟨"#065f46", ["#16a34a", "#a3e635", "#0f172a"]⟩
  | .mountain => ⟨"#334155", ["#64748b", "#e2e8f0", "#0f172a"]⟩
  | .desert => ⟨"#f59e0b", ["#fbbf24", "#f97316", "#1f2937"]⟩
  | .space => ⟨"#0b1020", ["#312e81", "#38bdf8", "#f472b6"]⟩
  | .neonStudio => ⟨"#0b1020", ["#22d3ee", "#a855f7", "#f472b6"]⟩
  | .meadow => ⟨"#16a34a", ["#4ade80", "#fde047", "#1f2937"]⟩
  | .genericScene => ⟨"#0f172a", ["#38bdf8", "#facc15", "#22c55e"]⟩
  | .character | .basic => generic

/-- The colours that a text names: codes first, then names, none twice. -/
def named (text : String) : List String :=
  Colour.distinct (Colour.hexIn text ++ Colour.namedIn text)

/-- The palette of a text: its first colours, or else those of the fallback, or else the generic
ones. -/
def resolve (text : String) (fallback : List String) : Palette :=
  ((ofList? ((named text).take limit)).or (ofList? (fallback.take limit))).getD generic

end Palette

end Storyboard
