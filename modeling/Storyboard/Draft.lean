import Storyboard.Action
import Storyboard.Placeholder
/-!
# Drafts and fragments

What a generator makes: its actions with the id of their common root, a summary and a title. A
draft holds actions of the compiler and the last number that it gave out; a fragment holds them
in wire form, as they are checked and composed.
-/

namespace Storyboard

/-- The output of a generator, in wire form. -/
structure Fragment (α : Type) where
  summary : String
  actions : List (Value α)
  root : Option String := none
  title : String := ""
  /-- Named parts of a figure, and where it stands. -/
  parts : Fields α := []

/-- The output of a generator that numbered its new elements up to `issued`. -/
structure Draft (α : Type) where
  summary : String
  actions : List (Action α)
  root : Option String := none
  title : String
  parts : Fields α := []
  issued : Nat

namespace Draft

variable {α : Type}

/-- The wire form of a draft. -/
def fragment (d : Draft α) : Fragment α where
  summary := d.summary
  actions := d.actions.map Action.toValue
  root := d.root
  title := d.title
  parts := d.parts

end Draft

end Storyboard
