import Storyboard.Proofs.Artboard
import Storyboard.Proofs.Binary.Part
import Storyboard.Proofs.Draft.Canvas
import Storyboard.Proofs.Track
/-!
# The image that moves in a photo

A photo moves one image, around the place where it is: the selected image, or else the first on the
canvas, or else a new one.  Nothing is drawn under an image of the canvas.
-/

namespace Storyboard

open Storyboard.Action (key)

variable {α : Type}

/-- The id of the image that an action adds. -/
def Action.addedImage? : Action α → Option String
  | .add .image id _ _ => some id
  | _ => none

namespace Photo

variable {p : Plan α} {e : Element α} {n : Nat} {image : String}
  {as lead rest moves placed : List (Action α)}

/-! ## The image that a plan means -/

/-- The image that a plan means: the selected element if it is one, or else the first one on the
canvas. -/
inductive Meant (p : Plan α) (e : Element α) : Prop where
  | selected (himage : e.kind = "image") (hselected : p.selected = some e)
  | existing (himage : e.kind = "image") (hselected : ∀ s ∈ p.selected, s.kind ≠ "image")
      (before after : List (Element α)) (hexisting : p.existing = before ++ e :: after)
      (hfirst : ∀ b ∈ before, b.kind ≠ "image")

/-- Neither the selected element nor any on the canvas is an image. -/
def Imageless (p : Plan α) : Prop :=
  (∀ s ∈ p.selected, s.kind ≠ "image") ∧ ∀ e ∈ p.existing, e.kind ≠ "image"

theorem filter_selected_eq_none_iff :
    (p.selected.filter fun e => e.kind = "image") = none ↔
      ∀ s ∈ p.selected, s.kind ≠ "image" := by
  simp [Option.filter_eq_none_iff]

theorem found?_eq_some_iff : found? p = some e ↔ Meant p e := by
  rw [found?, Option.or_eq_some_iff, filter_selected_eq_none_iff, Option.filter_eq_some_iff,
    List.find?_eq_some_iff_append]
  constructor
  · rintro (⟨hselected, himage⟩ | ⟨hselected, himage, before, after, hexisting, hfirst⟩)
    · exact .selected (of_decide_eq_true himage) hselected
    · exact .existing (of_decide_eq_true himage) hselected before after hexisting
        (by simpa using hfirst)
  · rintro (⟨himage, hselected⟩ | ⟨himage, hselected, before, after, hexisting, hfirst⟩)
    · exact .inl ⟨hselected, decide_eq_true himage⟩
    · exact .inr ⟨hselected, decide_eq_true himage, before, after, hexisting,
        by simpa using hfirst⟩

theorem found?_eq_none_iff : found? p = none ↔ Imageless p := by
  rw [found?, Option.or_eq_none_iff, filter_selected_eq_none_iff, List.find?_eq_none]
  simp [Imageless]

theorem meant_unique_or_imageless (p : Plan α) : (∃! e, Meant p e) ∨ Imageless p := by
  cases hfound : found? p with
  | none => exact .inr (found?_eq_none_iff.1 hfound)
  | some e =>
      refine .inl ⟨e, found?_eq_some_iff.1 hfound, fun e' he' => ?_⟩
      exact Option.some.inj ((found?_eq_some_iff.2 he').symm.trans hfound)

/-! ## Images and keyframes -/

/-- The ids of the images that some actions add. -/
def images (as : List (Action α)) : List String := as.filterMap Action.addedImage?

theorem images_append (as bs : List (Action α)) : images (as ++ bs) = images as ++ images bs :=
  List.filterMap_append

/-- Some actions are keyframes on one element. -/
def KeysOn (id : String) (as : List (Action α)) : Prop :=
  ∀ a ∈ as, ∃ k, a = .keyframe k ∧ k.element = id

namespace KeysOn

variable {id : String}

theorem nil : KeysOn id ([] : List (Action α)) := by
  simp [KeysOn]

theorem cons {property easing : String} {time value : α} (h : KeysOn id as) :
    KeysOn id (key id property time value easing :: as) :=
  List.forall_mem_cons.2 ⟨⟨_, rfl, rfl⟩, h⟩

theorem append {bs : List (Action α)} (has : KeysOn id as) (hbs : KeysOn id bs) :
    KeysOn id (as ++ bs) :=
  fun a ha => (List.mem_append.1 ha).elim (has a) (hbs a)

theorem added?_eq_none (h : KeysOn id as) : ∀ a ∈ as, a.added? = none := by
  intro a ha
  obtain ⟨k, rfl, -⟩ := h a ha
  rfl

theorem images_eq_nil (h : KeysOn id as) : images as = [] := by
  apply List.filterMap_eq_nil_iff.2
  intro a ha
  obtain ⟨k, rfl, -⟩ := h a ha
  rfl

end KeysOn

section

variable [Scalar α] {share reach : α}

/-! ## Where the image is -/

/-- A measure is the known one unless it is unknown or zero. -/
def Measured (known : Option α) (default size : α) : Prop :=
  (∃ x, known = some x ∧ Scalar.isZero x = false ∧ size = x) ∨
    (∀ x ∈ known, Scalar.isZero x = true) ∧ size = default

/-- The box of the image that moves: each measure is the image's own or a share of the artboard's,
and the image is at its own place if both coordinates are known and else in the middle. -/
structure Resolved (p : Plan α) (e? : Option (Element α)) (share : α) (t : PhotoTarget α) :
    Prop where
  width : Measured (e?.bind (·.width)) (p.width * share) t.width
  height : Measured (e?.bind (·.height)) (p.height * share) t.height
  place : (∃ e ∈ e?, e.x = some t.x ∧ e.y = some t.y) ∨
    (∀ e ∈ e?, e.x = none ∨ e.y = none) ∧
      t.x = p.width * 0.5 - t.width / 2.0 ∧ t.y = p.height * 0.5 - t.height / 2.0

theorem measured_getD (known : Option α) (default : α) :
    Measured known default ((known.filter fun x => !Scalar.isZero x).getD default) := by
  rcases known with _ | x
  · exact .inr ⟨by simp, rfl⟩
  · cases hx : Scalar.isZero x with
    | true => exact .inr ⟨by simpa using hx, by simp [Option.filter_some, hx]⟩
    | false => exact .inl ⟨x, rfl, hx, by simp [Option.filter_some, hx]⟩

theorem resolved_target (p : Plan α) (share : α) :
    Resolved p (found? p) share (target p share) := by
  unfold target
  dsimp only
  split
  · rename_i x y hx hy
    obtain ⟨e, he, hex⟩ := Option.bind_eq_some_iff.1 hx
    obtain ⟨e', he', hey⟩ := Option.bind_eq_some_iff.1 hy
    obtain rfl : e = e' := Option.some.inj (he.symm.trans he')
    exact ⟨measured_getD _ _, measured_getD _ _, .inl ⟨e, he, hex, hey⟩⟩
  · rename_i hnone
    refine ⟨measured_getD _ _, measured_getD _ _, .inr ⟨fun e he => ?_, rfl, rfl⟩⟩
    rw [Option.mem_def.1 he] at hnone
    cases hx : e.x with
    | none => exact .inl rfl
    | some x => cases hy : e.y with
      | none => exact .inr rfl
      | some y => exact (hnone x y hx hy).elim

/-! ## What is added for the image -/

/-- A rectangle that covers the artboard. -/
def IsBackdrop (p : Plan α) : Action α → Prop
  | .add .rect _ props _ =>
    (∃ x, Fields.get? props "x" = some (.real x) ∧ Scalar.isZero x = true) ∧
      (∃ y, Fields.get? props "y" = some (.real y) ∧ Scalar.isZero y = true) ∧
      Fields.get? props "width" = some (.real p.width) ∧
      Fields.get? props "height" = some (.real p.height)
  | _ => False

theorem isBackdrop_rect_iff {id : String} {x y width height strokeWidth : α}
    {fill stroke : Value α} :
    IsBackdrop p (Action.rect id x y width height fill stroke strokeWidth) ↔
      Scalar.isZero x = true ∧ Scalar.isZero y = true ∧ width = p.width ∧ height = p.height := by
  simp [IsBackdrop, Action.rect, Action.strokeFields, Fields.setAll]

theorem KeysOn.not_isBackdrop {id : String} (h : KeysOn id as) : ∀ a ∈ as, ¬ IsBackdrop p a := by
  intro a ha
  obtain ⟨k, rfl, -⟩ := h a ha
  exact not_false

theorem images_eq_nil_of_isBackdrop (h : ∀ a ∈ as, IsBackdrop p a) : images as = [] := by
  apply List.filterMap_eq_nil_iff.2
  intro a ha
  have hback := h a ha
  unfold IsBackdrop at hback
  split at hback
  · rfl
  · exact hback.elim

/-- The new image of a plan, in its box. -/
def addition (p : Plan α) (t : PhotoTarget α) (id : String) : Action α :=
  Action.image id t.x t.y t.width t.height p.imageHref

/-- What is added before an image moves: nothing when the plan means one, or else an image under the
last number, over backdrops or not. -/
inductive Placed (p : Plan α) (t : PhotoTarget α) (n : Nat) : String → List (Action α) → Prop where
  | found {e : Element α} (h : found? p = some e) : Placed p t n e.id []
  | added {backdrops : List (Action α)} (h : found? p = none)
      (hbackdrops : ∀ b ∈ backdrops, IsBackdrop p b) :
      Placed p t n (Placeholder.id n) (backdrops ++ [addition p t (Placeholder.id n)])

theorem placed_place (p : Plan α) (share : α) (n : Nat) :
    Placed p (target p share) (place p (target p share) n).2.2 (place p (target p share) n).1
      (place p (target p share) n).2.1 := by
  unfold place
  rw [target_id]
  cases hfound : found? p with
  | none => exact .added hfound fun _ hb => absurd hb List.not_mem_nil
  | some e => exact .found hfound

theorem not_isBackdrop_place (p : Plan α) (t : PhotoTarget α) (n : Nat) :
    ∀ a ∈ (place p t n).2.1, ¬ IsBackdrop p a := by
  unfold place
  split
  · simp
  · intro a ha
    rw [List.mem_singleton.1 ha]
    exact not_false

/-! ## What follows the moves -/

/-- Other elements under the numbers after `n`, with keyframes of their own.  None of them is a
backdrop unless the exception holds. -/
structure Follows (p : Plan α) (exception : Prop) (n : Nat) (rest : List (Action α)) : Prop where
  head : ∀ a ∈ rest.head?, a.added?.isSome = true ∧ a.addedImage? = none
  images : images rest = []
  adds : ∃ count, Adds n count rest
  keyed : ∀ k, .keyframe k ∈ rest → ∃ a ∈ rest, a.added? = some k.element
  bare : ∀ a ∈ rest, IsBackdrop p a → exception

namespace Follows

variable {exception : Prop} {a : Action α} {keys : List (Action α)}

theorem nil (p : Plan α) (exception : Prop) (n : Nat) : Follows p exception n [] where
  head := by simp
  images := rfl
  adds := ⟨0, adds_nil n⟩
  keyed := by simp
  bare := by simp

/-- An element with its keyframes, before others. -/
theorem block (hadded : a.added? = some (Placeholder.id (n + 1))) (himage : a.addedImage? = none)
    (hkeys : KeysOn (Placeholder.id (n + 1)) keys) (hbare : IsBackdrop p a → exception)
    (h : Follows p exception (n + 1) rest) : Follows p exception n (a :: (keys ++ rest)) where
  head := by
    rintro b ⟨⟩
    simp [hadded, himage]
  images := by
    rw [Photo.images, List.filterMap_cons_none himage, ← Photo.images, images_append,
      hkeys.images_eq_nil, h.images]
    rfl
  adds := by
    obtain ⟨count, hcount⟩ := h.adds
    refine ⟨0 + count + 1, adds_cons hadded ?_⟩
    exact adds_append (adds_of_none hkeys.added?_eq_none) hcount
  keyed := by
    intro k hk
    rcases List.mem_cons.1 hk with rfl | hk
    · cases hadded
    · rcases List.mem_append.1 hk with hk | hk
      · obtain ⟨_, ⟨⟩, helement⟩ := hkeys _ hk
        exact ⟨a, List.mem_cons_self, by rw [hadded, helement]⟩
      · obtain ⟨b, hb, hadds⟩ := h.keyed k hk
        exact ⟨b, List.mem_cons_of_mem _ (List.mem_append_right _ hb), hadds⟩
  bare := by
    intro b hb hback
    rcases List.mem_cons.1 hb with rfl | hb
    · exact hbare hback
    · rcases List.mem_append.1 hb with hb | hb
      · exact absurd hback (hkeys.not_isBackdrop b hb)
      · exact h.bare b hb hback

/-- Keyframes on an element that is not among the others are not theirs. -/
theorem track_eq_nil {property : String} (h : Follows p exception n rest)
    (hother : ∀ a ∈ rest, a.added? ≠ some image) : track image property rest = [] := by
  apply Storyboard.track_eq_nil
  intro k hk helement
  obtain ⟨a, ha, hadded⟩ := h.keyed k hk
  exact hother a ha (by rw [hadded, helement])

/-- The numbers of the others are later ones. -/
theorem added?_ne (h : Follows p exception n rest) :
    ∀ a ∈ rest, a.added? ≠ some (Placeholder.id n) := by
  intro a ha hadded
  obtain ⟨count, hcount⟩ := h.adds
  have hmem : Placeholder.id n ∈ (List.range' (n + 1) count).map Placeholder.id := by
    rw [← hcount]
    exact List.mem_filterMap.2 ⟨a, ha, hadded⟩
  obtain ⟨k, hk, hsame⟩ := List.mem_map.1 hmem
  have hlow := (List.mem_range'_1.1 hk).1
  have := Placeholder.id_injective hsame
  omega

end Follows

/-! ## Motion -/

/-- One image moves: the one that the plan means, or else a new one in its box.  In the lead, up to
the first overlay, orb or silhouette, all keyframes are its own, and it goes `reach` to both sides
of its place.  The rest moves what it adds; it moves the image no further, unless it gives the id of
the image away once more. -/
structure Motion (p : Plan α) (share reach last : α) (image : String)
    (lead rest : List (Action α)) : Prop where
  own : ∀ e, Meant p e → image = e.id ∧ images (lead ++ rest) = []
  new : Imageless p → images (lead ++ rest) = [image] ∧
    addition p (target p share) image ∈ lead ∧ ∀ a ∈ rest, a.added? ≠ some image
  leading : ∀ a ∈ lead, IsBackdrop p a ∨ a.addedImage? = some image ∨
    ∃ k, a = .keyframe k ∧ k.element = image
  following : ∀ a ∈ rest.head?, a.added?.isSome = true ∧ a.addedImage? = none
  others : ∀ k, .keyframe k ∈ rest → ∃ a ∈ rest, a.added? = some k.element
  place : Resolved p (found? p) share (target p share)
  across : track image "x" lead = [(0.0, .real ((target p share).x - reach)),
    (last, .real ((target p share).x + reach))]
  apart : (∀ a ∈ rest, a.added? ≠ some image) → track image "x" rest = []

section

variable {t : PhotoTarget α}

theorem Placed.leading (h : Placed p t n image placed) :
    ∀ a ∈ placed, IsBackdrop p a ∨ a.addedImage? = some image := by
  cases h with
  | found h => simp
  | added h hbackdrops =>
      intro a ha
      rcases List.mem_append.1 ha with ha | ha
      · exact .inl (hbackdrops a ha)
      · rw [List.mem_singleton.1 ha]
        exact .inr rfl

theorem Placed.track_eq_nil {id property : String} (h : Placed p t n image placed) :
    track id property placed = [] :=
  Storyboard.track_eq_nil fun _ hk => (h.leading _ hk).elim False.elim nofun

end

/-- What is added for an image, its moves and what follows them. -/
theorem motion {exception : Prop} {last : α} (hplaced : Placed p (target p share) n image placed)
    (hmoves : KeysOn image moves) (hfollows : Follows p exception n rest)
    (hacross : track image "x" moves = [(0.0, .real ((target p share).x - reach)),
      (last, .real ((target p share).x + reach))]) :
    Motion p share reach last image (placed ++ moves) rest where
  own := by
    intro e he
    rw [images_append, images_append, hmoves.images_eq_nil, hfollows.images]
    have hfound := found?_eq_some_iff.2 he
    cases hplaced with
    | found h =>
        cases h.symm.trans hfound
        exact ⟨rfl, rfl⟩
    | added h => cases h.symm.trans hfound
  new := by
    intro himageless
    rw [images_append, images_append, hmoves.images_eq_nil, hfollows.images]
    have hfound := found?_eq_none_iff.2 himageless
    cases hplaced with
    | found h => cases h.symm.trans hfound
    | added h hbackdrops =>
        refine ⟨?_, ?_, hfollows.added?_ne⟩
        · rw [images_append, images_eq_nil_of_isBackdrop hbackdrops]
          rfl
        · exact List.mem_append_left _ (List.mem_append_right _ List.mem_cons_self)
  leading := by
    intro a ha
    rcases List.mem_append.1 ha with ha | ha
    · exact (hplaced.leading a ha).imp_right .inl
    · exact .inr (.inr (hmoves a ha))
  following := hfollows.head
  others := hfollows.keyed
  place := resolved_target p share
  across := by
    rw [track_append, hplaced.track_eq_nil, hacross]
    rfl
  apart := hfollows.track_eq_nil

/-! ## The two motions -/

/-- A property of an element that goes from one value to another. -/
def span (id property : String) (last start finish : α) : List (Action α) :=
  [key id property 0.0 start, key id property last finish "ease-in-out"]

section

variable {id other property name : String} {last start finish : α}

theorem keysOn_span : KeysOn id (span id property last start finish) := .cons (.cons .nil)

theorem track_span : track id property (span id property last start finish) =
    [(0.0, .real start), (last, .real finish)] := by
  simp [span]

theorem track_span_of_ne (h : name ≠ property) :
    track other property (span id name last start finish) = [] := by
  simp [span, h]

end

/-- The moves of an image in a pan. -/
def panMoves (image : String) (t : PhotoTarget α) (last : α) : List (Action α) :=
  span image "scale" last 1.0 1.18 ++ span image "x" last (t.x - 20.0) (t.x + 20.0) ++
    span image "y" last (t.y - 10.0) (t.y + 10.0)

/-- The moves of an image behind an overlay. -/
def layersMoves (image : String) (t : PhotoTarget α) (last : α) : List (Action α) :=
  span image "scale" last 1.02 1.15 ++ span image "x" last (t.x - 30.0) (t.x + 30.0)

section

variable {t : PhotoTarget α} {last : α}

theorem keysOn_panMoves : KeysOn image (panMoves image t last) :=
  (keysOn_span.append keysOn_span).append keysOn_span

theorem keysOn_layersMoves : KeysOn image (layersMoves image t last) :=
  keysOn_span.append keysOn_span

theorem track_panMoves : track image "x" (panMoves image t last) =
      [(0.0, .real (t.x - 20.0)), (last, .real (t.x + 20.0))] ∧
    track image "y" (panMoves image t last) =
      [(0.0, .real (t.y - 10.0)), (last, .real (t.y + 10.0))] := by
  simp [panMoves, track_span, track_span_of_ne]

theorem track_layersMoves : track image "x" (layersMoves image t last) =
    [(0.0, .real (t.x - 30.0)), (last, .real (t.x + 30.0))] := by
  simp [layersMoves, track_span, track_span_of_ne]

end

theorem actions_pan (p : Plan α) (n : Nat) {t : PhotoTarget α} {last : α} {m : Nat}
    (ht : t = target p 0.7) (hlast : last = Scalar.max 3.0 p.duration)
    (hplace : place p t n = (image, placed, m)) :
    ∃ rest, (pan p n).actions = placed ++ panMoves image t last ++ rest ∧
      Follows p False m rest ∧ ∀ id, track id "y" rest = [] := by
  subst ht hlast
  cases hparallax : p.mentions .parallax <;> cases hsilhouette : p.mentions .silhouette <;>
    simp only [pan, hplace, hparallax, hsilhouette, if_true, if_false, Bool.false_eq_true]
  · exact ⟨_, List.append_assoc _ _ _, .nil .., fun _ => rfl⟩
  · refine ⟨_, List.append_assoc _ _ _, .block rfl rfl .nil id (.nil ..), fun _ => rfl⟩
  · refine ⟨_, List.append_assoc _ _ _, .block rfl rfl keysOn_span id (.nil ..), fun _ => ?_⟩
    simp [Action.circle]
  · refine ⟨_, List.append_assoc _ _ _,
      .block rfl rfl keysOn_span id (.block rfl rfl .nil id (.nil ..)), fun _ => ?_⟩
    simp [Action.circle, Action.path]

end

/-! ### The layered motion -/

section

variable {p : Plan Float} {id : String} {x y width height strokeWidth : Float}
  {fill stroke : Value Float}

theorem isBackdrop_rect_full :
    IsBackdrop p (Action.rect id 0.0 0.0 p.width p.height fill stroke strokeWidth) :=
  isBackdrop_rect_iff.2 ⟨by decide +kernel, by decide +kernel, rfl, rfl⟩

/-- An overlay that starts at zero and is as wide as the artboard is nowhere. -/
theorem width_le_of_overlay (h : IsBackdrop p
    (Action.rect id (x - p.width * 0.45 / 2.0) y (p.width * 0.45) height fill stroke strokeWidth)) :
    p.width ≤ 0.0 := by
  obtain ⟨hzero, -, hwidth, -⟩ := isBackdrop_rect_iff.1 h
  by_contra hpos
  exact Binary.mul_nineTwentieths_ne_of_isZero hpos hzero hwidth

end

theorem actions_layers (p : Plan Float) (n : Nat) {t : PhotoTarget Float} {last : Float}
    (ht : t = target p 0.75) (hlast : last = Scalar.max 4.0 p.duration) :
    ∃ m image placed rest, (layers p n).actions =
        placed ++ layersMoves image t last ++ rest ∧
      Placed p t m image placed ∧ Follows p (p.width ≤ 0.0) m rest ∧
      (Imageless p → ∃ b ∈ placed.head?, IsBackdrop p b) := by
  have hid := target_id p 0.75
  subst ht hlast
  rcases hfound : found? p with _ | e <;>
    cases hframe : p.features.any [.boundingBox, .subject] <;>
    simp only [hfound, Option.map_none, Option.map_some] at hid <;>
    simp only [layers, place, hid, hframe, Option.isNone_none, Option.isNone_some, if_true,
      if_false, Bool.false_eq_true]
  case none.false =>
    refine ⟨_, _, [_] ++ [_], _, List.append_assoc _ _ _, .added hfound ?_,
      .block rfl rfl keysOn_span width_le_of_overlay (.nil ..), fun _ => ⟨_, rfl, ?_⟩⟩
    · exact fun b hb => List.mem_singleton.1 hb ▸ isBackdrop_rect_full
    · exact isBackdrop_rect_full
  case none.true =>
    refine ⟨_, _, [_] ++ [_], _, List.append_assoc _ _ _, .added hfound ?_,
      .block rfl rfl keysOn_span width_le_of_overlay (.block rfl rfl (.cons (.cons (.cons .nil)))
        width_le_of_overlay (.nil ..)), fun _ => ⟨_, rfl, ?_⟩⟩
    · exact fun b hb => List.mem_singleton.1 hb ▸ isBackdrop_rect_full
    · exact isBackdrop_rect_full
  case some.false =>
    refine ⟨_, _, [], _, List.append_assoc _ _ _, .found hfound,
      .block rfl rfl keysOn_span width_le_of_overlay (.nil ..), fun himageless => ?_⟩
    cases hfound.symm.trans (found?_eq_none_iff.2 himageless)
  case some.true =>
    refine ⟨_, _, [], _, List.append_assoc _ _ _, .found hfound,
      .block rfl rfl keysOn_span width_le_of_overlay (.block rfl rfl (.cons (.cons (.cons .nil)))
        width_le_of_overlay (.nil ..)), fun himageless => ?_⟩
    cases hfound.symm.trans (found?_eq_none_iff.2 himageless)

/-! ### Both motions -/

theorem motion_pan (p : Plan Float) (n : Nat) : ∃ image lead rest,
    (pan p n).actions = lead ++ rest ∧
      Motion p 0.7 20.0 (Scalar.max 3.0 p.duration) image lead rest ∧
      (∀ a ∈ lead ++ rest, ¬ IsBackdrop p a) ∧
      track image "y" (lead ++ rest) = [(0.0, .real ((target p 0.7).y - 10.0)),
        (Scalar.max 3.0 p.duration, .real ((target p 0.7).y + 10.0))] := by
  have hplaced := placed_place p 0.7 n
  have hbare := not_isBackdrop_place p (target p 0.7) n
  rcases hplace : place p (target p 0.7) n with ⟨image, placed, m⟩
  rw [hplace] at hplaced hbare
  obtain ⟨rest, hactions, hfollows, hy⟩ := actions_pan p n rfl rfl hplace
  refine ⟨image, _, rest, hactions, motion hplaced keysOn_panMoves hfollows track_panMoves.1,
    ?_, ?_⟩
  · intro a ha
    rcases List.mem_append.1 ha with ha | ha
    · exact (List.mem_append.1 ha).elim (hbare a) (keysOn_panMoves.not_isBackdrop a)
    · exact hfollows.bare a ha
  · rw [track_append, track_append, hplaced.track_eq_nil, track_panMoves.2, hy]
    rfl

theorem motion_layers (p : Plan Float) (n : Nat) : ∃ image lead rest,
    (layers p n).actions = lead ++ rest ∧
      Motion p 0.75 30.0 (Scalar.max 4.0 p.duration) image lead rest ∧
      (Imageless p → ∃ b ∈ lead.head?, IsBackdrop p b) ∧
      ∀ e, Meant p e → ¬ p.width ≤ 0.0 → ∀ a ∈ lead ++ rest, ¬ IsBackdrop p a := by
  obtain ⟨m, image, placed, rest, hactions, hplaced, hfollows, hbackdrop⟩ :=
    actions_layers p n rfl rfl
  refine ⟨image, _, rest, hactions, motion hplaced keysOn_layersMoves hfollows track_layersMoves,
    fun himageless => ?_, fun e he hwidth a ha hback => ?_⟩
  · obtain ⟨b, hb, hback⟩ := hbackdrop himageless
    exact ⟨b, by rw [List.head?_append, hb]; rfl, hback⟩
  · have hfound := found?_eq_some_iff.2 he
    rcases List.mem_append.1 ha with ha | ha
    · cases hplaced with
      | found h => exact keysOn_layersMoves.not_isBackdrop a ha hback
      | added h => cases h.symm.trans hfound
    · exact hwidth (hfollows.bare a ha hback)

/-- Both motions move one image: the selected one, else the first on the canvas, and else a new one.
A new image has a backdrop in the layered motion only.  No image of the plan has one, if the
artboard is wider than nothing, as that of each request is. -/
theorem one_image_moves (p : Plan Float) (n : Nat) :
    ((∃! e, Meant p e) ∨ Imageless p) ∧
      (∃ image lead rest, (pan p n).actions = lead ++ rest ∧
        Motion p 0.7 20.0 (Scalar.max 3.0 p.duration) image lead rest ∧
        (∀ a ∈ lead ++ rest, ¬ IsBackdrop p a) ∧
        track image "y" (lead ++ rest) = [(0.0, .real ((target p 0.7).y - 10.0)),
          (Scalar.max 3.0 p.duration, .real ((target p 0.7).y + 10.0))]) ∧
      (∃ image lead rest, (layers p n).actions = lead ++ rest ∧
        Motion p 0.75 30.0 (Scalar.max 4.0 p.duration) image lead rest ∧
        (Imageless p → ∃ b ∈ lead.head?, IsBackdrop p b) ∧
        ∀ e, Meant p e → ¬ p.width ≤ 0.0 → ∀ a ∈ lead ++ rest, ¬ IsBackdrop p a) ∧
      ∀ env value, Plan.ofValue (Settings.read env) value = .ok p → ¬ p.width ≤ 0.0 :=
  ⟨meant_unique_or_imageless p, motion_pan p n, motion_layers p n,
    fun _ _ hplan => (Plan.not_le_of_ofValue hplan).1⟩

/-- A canvas with a portrait in a frame. -/
def gallery : Request Float where
  prompt := "animate the photo in layers"
  artboard := some ⟨640.0, 480.0⟩
  existing := [{ id := "frame", kind := "rect" }, { id := "portrait", kind := "image" }]

/-- The portrait moves, and nothing is drawn under it. -/
theorem one_image_moves_gallery : ∃ p e lead rest,
    Plan.ofRequest (Settings.read fun _ => none) gallery = .ok p ∧ Meant p e ∧ ¬ p.width ≤ 0.0 ∧
      (layers p 0).actions = lead ++ rest ∧
      Motion p 0.75 30.0 (Scalar.max 4.0 p.duration) "portrait" lead rest ∧
      ∀ a ∈ lead ++ rest, ¬ IsBackdrop p a := by
  have hshort : Text.ShortRuns gallery.prompt.toList := Text.shortRuns_of_no_digits (by decide)
  obtain ⟨p, hp⟩ := Plan.ofRequest_returns (Settings.read fun _ => none) hshort
  have hfollows := Plan.follows_of_ofRequest hp
  have hwidth : ¬ p.width ≤ 0.0 := by
    rw [Plan.width, hfollows.board]
    decide
  have hmeant : Meant p { id := "portrait", kind := "image" } := by
    refine .existing rfl ?_ [{ id := "frame", kind := "rect" }] [] hfollows.existing ?_
    · rw [hfollows.selected]
      exact fun s hs => by cases hs
    · simp
  obtain ⟨-, -, ⟨image, lead, rest, hactions, hmotion, -, hbare⟩, -⟩ := one_image_moves p 0
  obtain rfl : image = "portrait" := (hmotion.own _ hmeant).1
  exact ⟨p, _, lead, rest, hp, hmeant, hwidth, hactions, hmotion, hbare _ hmeant hwidth⟩

end Photo

end Storyboard
