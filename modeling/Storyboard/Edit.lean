import Storyboard.Draft
import Storyboard.Edit.Create
import Storyboard.Selection
/-!
# Edits

The edit of a plan: of all elements on the canvas, of the one that is meant, or else by new
elements of a simple shape.
-/

namespace Storyboard.Edit

variable {α : Type} [Scalar α]

/-- The background colour of the artboard, when a prompt gives one. -/
def repaint (f : Features α) : List (Action α) × List String :=
  match f.colour with
  | some c =>
    if f.mentions .background then
      ([.board [("backgroundColor", .text c)]], ["Updated the artboard background."])
    else ([], [])
  | none => ([], [])

/-- The element that a prompt means: the selected one, or else one on the canvas. -/
def target? (p : Plan α) : Except Fault (Option (Element α)) :=
  match p.selected with
  | some e => .ok (some e)
  | none => Selection.pick p.features p.existing

def drafted (notes : List String) (actions : List (Action α)) (issued : Nat) :
    Draft α where
  summary := " ".intercalate notes
  actions
  title := "Direct Edit"
  issued

/-- All elements on the canvas change, if the prompt means all and changes anything. -/
def forAll? (p : Plan α) (n : Nat) : Option (Draft α) :=
  let (painted, notes) := repaint p.features
  let updated := changeAll p
  if p.mentions .all && !updated.isEmpty then
    some (drafted (notes ++ ["Updated all elements on the canvas."]) (painted ++ updated) n)
  else none

/-- The edit of an element that is meant. -/
def forOne (p : Plan α) (n : Nat) (e : Element α) : Draft α :=
  let (painted, notes) := repaint p.features
  let (changed, changeNotes) := change p e
  let actions := painted ++ changed
  drafted (notes ++ changeNotes
    ++ (if actions.isEmpty then ["Nothing to change on the selected element."] else [])) actions n

/-- New elements. -/
def forNew (p : Plan α) (n : Nat) : Draft α :=
  let (painted, notes) := repaint p.features
  let (created, createNotes) := create p n
  drafted (notes ++ createNotes) (painted ++ created) (n + p.features.count)

/-- The edit of a plan: of everything, of the element that is meant, or by new elements. -/
def build (p : Plan α) (n : Nat) : Except Fault (Draft α) :=
  if p.wantsCreate then .ok (forNew p n)
  else
    match forAll? p n with
    | some d => .ok d
    | none => do
      match ← target? p with
      | some e => return if e.id = "" then forNew p n else forOne p n e
      | none => return forNew p n

end Storyboard.Edit
