import Storyboard.Curve
import Storyboard.Draft
import Storyboard.Plan
/-!
# Photos

Motion for one image: the selected one, else the first on the canvas, else a new one. The pan
moves the whole image; the layered motion adds an overlay for the subject. Neither draws over an
image that is on the canvas already.
-/

namespace Storyboard

/-- The image that moves, and its box. An image without an id is yet to be added. -/
structure PhotoTarget (α : Type) where
  id : Option String
  x : α
  y : α
  width : α
  height : α

namespace Photo

open Storyboard.Action (key)

variable {α : Type} [Scalar α]

/-- The image on the canvas that a plan means. -/
def found? (p : Plan α) : Option (Element α) :=
  (p.selected.filter fun e => e.kind = "image").or (p.existing.find? fun e => e.kind = "image")

/-- Where the image is. An unknown or empty measure is a share of the artboard; an image without
a place is centred. -/
def target (p : Plan α) (share : α) : PhotoTarget α :=
  let found := found? p
  let measure (known : Option α) (whole : α) : α :=
    (known.filter fun x => !Scalar.isZero x).getD (whole * share)
  let width := measure (found.bind (·.width)) p.width
  let height := measure (found.bind (·.height)) p.height
  let id := found.map (·.id)
  match found.bind (·.x), found.bind (·.y) with
  | some x, some y => ⟨id, x, y, width, height⟩
  | _, _ => ⟨id, p.width * 0.5 - width / 2.0, p.height * 0.5 - height / 2.0, width, height⟩

/-- The id of the image, and the action that adds it under the id after `n` when it is new. -/
def place (p : Plan α) (t : PhotoTarget α) (n : Nat) : String × List (Action α) × Nat :=
  match t.id with
  | some id => (id, [], n)
  | none =>
    let id := Placeholder.id (n + 1)
    (id, [Action.image id t.x t.y t.width t.height p.imageHref], n + 1)

/-- A slow pan and zoom of the whole image. -/
def pan (p : Plan α) (n : Nat) : Draft α :=
  let d := Scalar.max 3.0 p.duration
  let t := target p 0.7
  let (image, placed, n) := place p t n
  let moves := [
    key image "scale" 0.0 1.0,
    key image "scale" d 1.18 "ease-in-out",
    key image "x" 0.0 (t.x - 20.0),
    key image "x" d (t.x + 20.0) "ease-in-out",
    key image "y" 0.0 (t.y - 10.0),
    key image "y" d (t.y + 10.0) "ease-in-out"]
  let (orb, n) :=
    if p.mentions .parallax then
      let id := Placeholder.id (n + 1)
      ([Action.circle id (p.width * 0.2) (p.height * 0.2) (p.minDim * 0.06)
          (p.colour 2 "#f97316"),
        key id "x" 0.0 (p.width * 0.18),
        key id "x" d (p.width * 0.24) "ease-in-out"], n + 1)
    else ([], n)
  let (silhouette, n) :=
    if p.mentions .silhouette then
      ([Action.path (Placeholder.id (n + 1)) (t.x + t.width / 2.0) (t.y + t.height / 2.0 + 40.0)
        (Curve.render (Curve.blob (p.minDim * 0.2) 6)) (.text "rgba(15,23,42,0.5)")], n + 1)
    else ([], n)
  { summary := "Applied a Ken Burns photo animation with gentle parallax."
    actions := placed ++ moves ++ orb ++ silhouette
    title := "Photo: Ken Burns"
    issued := n }

/-- The image moves behind an overlay for its subject. -/
def layers (p : Plan α) (n : Nat) : Draft α :=
  let d := Scalar.max 4.0 p.duration
  let t := target p 0.75
  let (backdrop, n) :=
    if t.id.isNone then
      let id := Placeholder.id (n + 1)
      ([Action.rect id 0.0 0.0 p.width p.height (p.background id 120.0)], n + 1)
    else ([], n)
  let (image, placed, n) := place p t n
  let moves := [
    key image "scale" 0.0 1.02,
    key image "scale" d 1.15 "ease-in-out",
    key image "x" 0.0 (t.x - 30.0),
    key image "x" d (t.x + 30.0) "ease-in-out"]
  let width := p.width * 0.45
  let height := p.height * 0.6
  let x := t.x + t.width / 2.0 - width / 2.0
  let y := t.y + t.height / 2.0 - height / 2.0
  let overlay := Placeholder.id (n + 1)
  let subject := [
    Action.rect overlay x y width height (.text "rgba(255,255,255,0.08)")
      (p.colour 2 "#a855f7") 2.0,
    key overlay "scale" 0.0 1.0,
    key overlay "scale" d 1.05 "ease-in-out"]
  let n := n + 1
  let (frame, n) :=
    if p.features.any [.boundingBox, .subject] then
      let id := Placeholder.id (n + 1)
      ([Action.rect id x y width height (.text "none") (p.colour 1 "#22d3ee") 2.0,
        key id "opacity" 0.0 0.2,
        key id "opacity" (d * 0.5) 1.0,
        key id "opacity" d 0.4], n + 1)
    else ([], n)
  { summary := "Split photo into background and subject layers with separate motion."
    actions := backdrop ++ placed ++ moves ++ subject ++ frame
    title := "Photo: Subject Layers"
    issued := n }

def build (p : Plan α) (n : Nat) : Draft α := if p.wantsLayers then layers p n else pan p n

end Photo

end Storyboard
