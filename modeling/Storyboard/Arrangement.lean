import Storyboard.Intent
import Storyboard.Scalar
/-!
# Arrangements

Places for several new elements, spread over the middle three fifths of the artboard.
-/

namespace Storyboard.Arrangement

variable {α : Type} [Scalar α]

/-- The least number of columns whose square holds `count` elements. -/
def columns (count : Nat) : Nat :=
  ((List.range (count + 1)).find? fun k => count ≤ k * k).getD count

/-- The rows that `count` elements fill. -/
def rows (count : Nat) : Nat := (count + columns count - 1) / columns count

/-- The gap between neighbours when `n` of them share a length. -/
def gap (length : α) (n : Nat) : α :=
  if 1 < n then (length * 0.6) / Scalar.ofNat (n - 1) else 0.0

/-- The place of the `index`-th of `count` elements; a single one stands in the middle. -/
def place (layout : Layout) (count : Nat) (width height : α) (index : Nat) : α × α :=
  if count ≤ 1 then (width / 2.0, height / 2.0)
  else match layout with
    | .row => (width * 0.2 + gap width count * Scalar.ofNat index, height / 2.0)
    | .column => (width / 2.0, height * 0.2 + gap height count * Scalar.ofNat index)
    | .grid =>
      let cols := columns count
      (width * 0.2 + gap width cols * Scalar.ofNat (index % cols),
        height * 0.2 + gap height (rows count) * Scalar.ofNat (index / cols))

/-- The places of `count` elements, of one at least. -/
def places (layout : Layout) (count : Nat) (width height : α) : List (α × α) :=
  (List.range (max 1 count)).map (place layout count width height)

end Storyboard.Arrangement
