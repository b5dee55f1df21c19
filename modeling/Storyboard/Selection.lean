import Storyboard.Curve
import Storyboard.Request
/-!
# Selections

The element on the canvas that a prompt means when none is selected.
-/

namespace Storyboard.Selection

variable {α : Type} [Scalar α]

/-- The keywords that name a kind of element, in order of preference. -/
def kinds : List (Keyword × String) := [
  (.circle, "circle"), (.rect, "rect"), (.text, "text"), (.path, "path"), (.photo, "image")]

/-- The area of an element, unknown measures counting as zero; only boxes and circles have one. -/
def area (e : Element α) : Except Fault α :=
  if e.kind = "rect" ∨ e.kind = "image" then .ok (e.width.getD 0.0 * e.height.getD 0.0)
  else if e.kind = "circle" then
    let r := e.r.getD 0.0
    let squared := Scalar.square r
    if Scalar.isFinite r && !Scalar.isFinite squared && !Scalar.isUndefined squared then
      .error .squareTooLarge
    else .ok (Curve.pi * squared)
  else .ok 0.0

/-- The elements that a prompt can mean: those of the kind it names, if there are any. -/
def candidates (f : Features α) (elements : List (Element α)) : List (Element α) :=
  match kinds.find? fun (k, _) => f.mentions k with
  | some (_, kind) =>
    match elements.filter fun e => e.kind = kind with
    | [] => elements
    | named => named
  | none => elements

/-- The first element whose measure no later one exceeds by the given order. -/
def best (better : α → α → Bool) : (Element α × α) → List (Element α × α) → Element α
  | (e, _), [] => e
  | (e, x), (e', x') :: rest =>
    if better x' x then best better (e', x') rest else best better (e, x) rest

/-- What a prompt ranks the candidates by. -/
inductive Ranking where
  | largest | smallest | leftmost | rightmost | topmost | bottommost | none
  deriving DecidableEq, Repr

def rankings : List (Keyword × Ranking) := [
  (.largest, .largest), (.smallest, .smallest), (.leftmost, .leftmost),
  (.rightmost, .rightmost), (.topmost, .topmost), (.bottommost, .bottommost)]

def ranking (f : Features α) : Ranking :=
  ((rankings.find? fun (k, _) => f.mentions k).map (·.2)).getD .none

/-- What a ranking compares, and whether less is better. -/
def measure : Ranking → Element α → Except Fault α
  | .largest, e | .smallest, e => area e
  | .leftmost, e | .rightmost, e => .ok (e.x.getD 0.0)
  | .topmost, e | .bottommost, e => .ok (e.y.getD 0.0)
  | .none, _ => .ok 0.0

/-- One measure is strictly better than another. -/
def better : Ranking → α → α → Bool
  | .largest, a, b | .rightmost, a, b | .bottommost, a, b => decide (b < a)
  | .smallest, a, b | .leftmost, a, b | .topmost, a, b => decide (a < b)
  | .none, _, _ => false

/-- The elements with their measures. -/
def measured (r : Ranking) : List (Element α) → Except Fault (List (Element α × α))
  | [] => .ok []
  | e :: rest => do
    let x ← measure r e
    let rest ← measured r rest
    return (e, x) :: rest

/-- The element that a prompt means: the best of its candidates by its ranking, the earliest of
several. -/
def pick (f : Features α) (elements : List (Element α)) : Except Fault (Option (Element α)) := do
  let r := ranking f
  match ← measured r (candidates f elements) with
  | [] => return none
  | first :: rest => return some (best (better r) first rest)

end Storyboard.Selection
