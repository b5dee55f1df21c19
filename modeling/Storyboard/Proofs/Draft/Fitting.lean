import Storyboard.Proofs.Draft.Canvas
import Storyboard.Proofs.Draft.Pace
import Storyboard.Proofs.Prompt.Tempered
/-!
# Drafts that fit through the gate

Every action that a generator makes fits: elements are named by placeholders or are named elements
of the canvas, times are shares of a roomy duration, and what a prompt says about opacity and
strokes is in range already.
-/

namespace Storyboard

open Storyboard.Action
open Gate (animatable)

theorem forall_mem_ite_nil {β : Type} {c : Prop} [Decidable c] {as : List β} {P : β → Prop}
    (h : ∀ a ∈ as, P a) : ∀ a ∈ (if c then as else []), P a :=
  fun a ha => h a (List.mem_ite_nil_right.1 ha).2

/-- All actions of the draft fit. -/
def Draft.Fits (d : Draft Float) : Prop := ∀ a ∈ d.actions, a.Fits

namespace Plan

variable {p : Plan Float}

@[simp] theorem inPlace_background (name id : String) (angle : Float) :
    InPlace (name, p.background id angle) := by
  unfold background backgroundIn
  split
  · exact inPlace_object _ _
  · exact inPlace_text _ _

@[simp] theorem inPlace_accent (name id : String) : InPlace (name, p.accent id) := by
  unfold accent accentIn
  split
  · exact inPlace_object _ _
  · exact inPlace_text _ _

@[simp] theorem inPlace_colour (name : String) (index : Nat) (default : String) :
    InPlace (name, p.colour index default) :=
  inPlace_text _ _

end Plan

@[simp] theorem within_strokeWidth_zero : Within "strokeWidth" 0.0 := by
  decide

/-! ## Scenes -/

namespace Scene

variable {p : Plan Float}

@[simp] theorem named_ref (n k : Nat) : Named (ref n k) :=
  named_id _

theorem fits_inGroup {n count : Nat} {summary title : String} {actions : List (Action Float)}
    (h : ∀ a ∈ actions, a.Fits) : (inGroup n count summary title actions).Fits :=
  List.forall_mem_cons.2 ⟨fits_group (named_ref n 1) (by simp), h⟩

theorem fits_sunset (h : Roomy p.duration) (n : Nat) : (sunset p n).Fits := by
  have hrise : Settable (p.duration * 0.4) := h.settable_share (by decide)
  exact fits_inGroup (by simp +decide [h.settable, hrise])

theorem fits_ocean (h : Roomy p.duration) (n : Nat) : (ocean p n).Fits := by
  have hrise : Settable (p.duration * 0.3) := h.settable_share (by decide)
  exact fits_inGroup (by simp +decide [h.settable, hrise])

theorem fits_desert (h : Roomy p.duration) (n : Nat) : (desert p n).Fits :=
  fits_inGroup (by simp +decide [h.settable])

theorem fits_meadow (h : Roomy p.duration) (n : Nat) : (meadow p n).Fits := by
  have hrise : Settable (p.duration * 0.4) := h.settable_share (by decide)
  exact fits_inGroup (by simp +decide [hrise])

theorem fits_generic (h : Roomy p.duration) (n : Nat) : (generic p n).Fits :=
  fits_inGroup (by simp +decide [h.settable])

theorem fits_city (h : Roomy p.duration) (n : Nat) : (city p n).Fits := by
  have hstart : ∀ i < 5, Roomy (1.5 + Scalar.ofNat i * 0.2) := by decide
  refine fits_inGroup (List.forall_mem_cons.2 ⟨by simp, ?_⟩)
  refine List.forall_mem_flatMap.2 fun i hi => ?_
  have hrise := h.settable_min (hstart i (List.mem_range.1 hi))
  simp +decide [house, hrise]

theorem fits_forest (h : Roomy p.duration) (n : Nat) : (forest p n).Fits := by
  have hhalf : Settable (p.duration * 0.5) := h.settable_share (by decide)
  refine fits_inGroup (List.forall_mem_append.2 ⟨by simp, ?_⟩)
  refine List.forall_mem_flatMap.2 fun i _ => ?_
  simp +decide [tree, h.settable, hhalf]

theorem fits_mountain (h : Roomy p.duration) (n : Nat) : (mountain p n).Fits := by
  refine fits_inGroup (List.forall_mem_append.2 ⟨by simp, ?_⟩)
  refine List.forall_mem_flatMap.2 fun i _ => ?_
  simp +decide [driftingCloud, h.settable]

theorem fits_space (h : Roomy p.duration) (n : Nat) : (space p n).Fits := by
  have hhalf : Settable (p.duration * 0.5) := h.settable_share (by decide)
  refine fits_inGroup (List.forall_mem_append.2 ⟨List.forall_mem_append.2 ⟨by simp, ?_⟩, ?_⟩)
  · refine List.forall_mem_flatMap.2 fun i _ => ?_
    simp +decide [star, h.settable, hhalf]
  · simp +decide [h.settable, hhalf]

theorem fits_neonStudio (h : Roomy p.duration) (n : Nat) : (neonStudio p n).Fits := by
  have hhalf : Settable (p.duration * 0.5) := h.settable_share (by decide)
  refine fits_inGroup (List.forall_mem_append.2 ⟨by simp, ?_⟩)
  refine List.forall_mem_flatMap.2 fun i _ => ?_
  simp +decide [strip, h.settable, hhalf]

theorem fits_of_builder? {archetype : Archetype} {make : Plan Float → Nat → Draft Float}
    (h : Roomy p.duration) (hmake : builder? archetype = some make) (n : Nat) :
    (make p n).Fits := by
  cases archetype <;>
    simp only [builder?, Option.some.injEq, reduceCtorEq] at hmake <;> subst hmake
  case sunset => exact fits_sunset h n
  case ocean => exact fits_ocean h n
  case city => exact fits_city h n
  case forest => exact fits_forest h n
  case mountain => exact fits_mountain h n
  case desert => exact fits_desert h n
  case space => exact fits_space h n
  case neonStudio => exact fits_neonStudio h n
  case meadow => exact fits_meadow h n
  case genericScene => exact fits_generic h n

theorem fits_of_build? {n : Nat} {d : Draft Float} (h : Roomy p.duration)
    (hd : build? p n = some d) : d.Fits := by
  obtain ⟨make, hmake, rfl⟩ := Option.map_eq_some_iff.1 hd
  exact fits_of_builder? h hmake n

end Scene

/-! ## Figures -/

theorem Motion.fits {m : Motion} {rig : Rig Float} {b : Beats Float} (hgroup : Named rig.group)
    (hlimb : ∀ l s, rig.limb l = some s → Named s) (hb : b.Paced) :
    ∀ a ∈ m.keyframes rig b, a.Fits := by
  have hidle : ∀ a ∈ idling rig b, a.Fits := by
    unfold idling
    split
    · simp
    · simp +decide [hgroup, hb.start, hb.mid, hb.finish]
  have hwave : ∀ a ∈ waving rig b, a.Fits := by
    unfold waving
    split
    · simp
    · rename_i arm harm
      simp +decide [hlimb _ _ harm, hb.rise, hb.mid, hb.settle]
  cases m with
  | idle => exact hidle
  | wave => exact hwave
  | waveAndIdle => exact List.forall_mem_append.2 ⟨hwave, hidle⟩
  | walk =>
      simp only [keyframes, walking]
      split
      · rename_i legLeft legRight armLeft armRight hll hlr hal har
        split
        · simp
        · simp +decide [swing, or_imp, forall_and, hgroup, hlimb _ _ hll, hlimb _ _ hlr,
            hlimb _ _ hal, hlimb _ _ har, hb.start, hb.rise, hb.mid, hb.settle, hb.finish]
      · simp
  | bounce =>
      simp +decide [keyframes, bouncing, hgroup, hb.start, hb.rise, hb.mid, hb.settle, hb.finish]
  | spin => simp +decide [keyframes, spinning, hgroup, hb.rise, hb.settle]
  | pulse => simp +decide [keyframes, pulsing, hgroup, hb.start, hb.mid, hb.finish]

namespace Rig

variable {p : Plan Float}

theorem fits_shapes {n : Nat} : ∀ a ∈ shapes p n, a.Fits := by
  unfold shapes
  cases buildOf p <;> simp [ref]

theorem fits_draft (n : Nat) : (draft p n).Fits := by
  refine List.forall_mem_cons.2 ⟨fits_group (named_id _) (by simp), ?_⟩
  rw [List.forall_mem_map]
  exact fun a ha => fits_under.2 (fits_shapes a ha)

theorem fits_animated (hb : p.beats.Paced) (n : Nat) : (animated p n).Fits := by
  have hgroup : Named (ofPlan p n).group := named_id _
  have hlimb : ∀ l s, (ofPlan p n).limb l = some s → Named s := by
    intro l s hs
    unfold ofPlan at hs
    dsimp only at hs
    split at hs
    · simp at hs
    · rw [← Option.some.inj hs]
      exact named_id _
  refine List.forall_mem_append.2 ⟨fits_draft n, ?_⟩
  unfold Motion.ofRig
  split
  · exact Motion.fits (m := .idle) hgroup hlimb hb
  · exact Motion.fits hgroup hlimb hb

end Rig

/-! ## Shapes -/

namespace Shape

variable {p : Plan Float}

theorem fits_element {id : String} (hid : Named id) : (element p id).Fits := by
  have hdashes : InPlace ("strokeDasharray",
      if p.mentions .animate then (.text "8 6" : Value Float) else .null) := by
    split
    · exact inPlace_text _ _
    · exact inPlace_null _
  unfold element
  dsimp only
  split
  · exact fits_path hid (by simp) (by simp) (by decide) (by simpa using hdashes)
  · exact fits_path hid (by simp) (by simp) (by decide) (by simpa using hdashes)

theorem fits_build (h : Roomy p.duration) (n : Nat) : (build p n).Fits := by
  refine List.forall_mem_cons.2 ⟨fits_element (named_id _), ?_⟩
  unfold drawing
  split
  · simp +decide [h.settable]
  · simp

end Shape

/-! ## Photos -/

namespace Photo

variable {p : Plan Float}

theorem named_found (hcanvas : ∀ id ∈ p.canvas, Named id) {e : Element Float}
    (h : found? p = some e) : Named e.id :=
  hcanvas _ (mem_canvas_of_found h)

theorem fits_pan (h : Roomy p.duration) (hcanvas : ∀ id ∈ p.canvas, Named id) (n : Nat) :
    (pan p n).Fits := by
  have hd : Settable (Scalar.max 3.0 p.duration) := (h.max_left (by decide)).settable
  have hid := target_id p 0.7
  have hnamed := @named_found p hcanvas
  rcases hfound : found? p with _ | e <;>
    cases hparallax : p.mentions .parallax <;> cases hsilhouette : p.mentions .silhouette <;>
    simp only [hfound, Option.map_none, Option.map_some, Option.some.injEq] at hid hnamed <;>
    simp +decide [Draft.Fits, pan, place, hid, hparallax, hsilhouette, hd, hnamed, or_imp,
      forall_and]

theorem fits_layers (h : Roomy p.duration) (hcanvas : ∀ id ∈ p.canvas, Named id) (n : Nat) :
    (layers p n).Fits := by
  have hroomy : Roomy (Scalar.max 4.0 p.duration) := h.max_left (by decide)
  have hd := hroomy.settable
  have hhalf : Settable (Scalar.max 4.0 p.duration * 0.5) := hroomy.settable_share (by decide)
  have hid := target_id p 0.75
  have hnamed := @named_found p hcanvas
  rcases hfound : found? p with _ | e <;>
    cases hframe : p.features.any [.boundingBox, .subject] <;>
    simp only [hfound, Option.map_none, Option.map_some, Option.some.injEq] at hid hnamed <;>
    simp +decide [Draft.Fits, layers, place, hid, hframe, hd, hhalf, hnamed, or_imp, forall_and]

theorem fits_build (h : Roomy p.duration) (hcanvas : ∀ id ∈ p.canvas, Named id) (n : Nat) :
    (build p n).Fits := by
  unfold build
  split
  · exact fits_layers h hcanvas n
  · exact fits_pan h hcanvas n

end Photo

/-! ## Edits -/

theorem Animation.fits {m : Animation} {id : String} {d : Float} {f : Features Float}
    {base : Float × Float} {goal : Option (Float × Float)} (hid : Named id) (h : Roomy d) :
    ∀ a ∈ m.keyframes id d f base goal, a.Fits := by
  have hhalf : Settable (d * 0.5) := h.settable_share (by decide)
  have hmoving : ∀ a ∈ moving id d f base goal, a.Fits := by
    unfold moving
    split
    · simp +decide [hid, h.settable]
    · refine List.forall_mem_append.2 ⟨by simp +decide [hid, h.settable], ?_⟩
      split
      · simp +decide [hid, h.settable]
      · split
        · simp +decide [hid, h.settable]
        · simp
  simp only [keyframes, List.forall_mem_append]
  refine ⟨⟨⟨⟨?_, ?_⟩, ?_⟩, ?_⟩, ?_⟩
  · exact forall_mem_ite_nil hmoving
  · exact forall_mem_ite_nil (by simp +decide [hid, h.settable, hhalf])
  · exact forall_mem_ite_nil (by simp +decide [hid, h.settable])
  · exact forall_mem_ite_nil (by simp +decide [hid, h.settable, hhalf])
  · exact forall_mem_ite_nil (by simp +decide [hid, h.settable])

namespace Edit

theorem within_scaled (scale factor : Float) : Within "scale" (scaled scale factor) :=
  within_of_bounds (b := ⟨0.01, none⟩) rfl (Binary.not_lt_of_clamp (by decide)) (by simp)

theorem within_nonzero {name : String} {x? : Option Float} {x : Float}
    (h : ∀ x, x? = some x → Within name x) (hx : nonzero? x? = some x) : Within name x :=
  h x (Option.filter_eq_some_iff.1 hx).1

theorem inPlace_toFields (extent : Extent Float) : ∀ field ∈ extent.toFields, InPlace field := by
  intro field hfield
  obtain ⟨⟨name, x?⟩, hmem, h⟩ := List.mem_filterMap.1 hfield
  obtain ⟨x, -, rfl⟩ := Option.map_eq_some_iff.1 h
  simp only [List.mem_cons, Prod.mk.injEq, List.not_mem_nil, or_false] at hmem
  rcases hmem with ⟨rfl, -⟩ | ⟨rfl, -⟩ | ⟨rfl, -⟩ <;>
    exact inPlace_real (within_of_unbounded (by decide))

theorem inPlace_changes {p : Plan Float} (h : p.features.Tempered) (e : Element Float) :
    ∀ field ∈ changes p e, InPlace field := by
  simp only [changes, List.forall_mem_append]
  refine ⟨⟨⟨⟨⟨?_, ?_⟩, ?_⟩, ?_⟩, ?_⟩, ?_⟩
  · split <;> simp
  · split
    · rename_i w hw
      exact forall_mem_ite_nil (by simp [within_nonzero h.strokeWidth hw])
    · simp
  · split
    · rename_i o ho
      simp [h.opacity o ho]
    · simp
  · split
    · simp [within_scaled]
    · exact forall_mem_ite_nil (by simp [within_scaled])
  · unfold measures
    dsimp only
    split
    · exact inPlace_toFields _
    · exact forall_mem_ite_nil (inPlace_toFields _)
  · split
    · exact forall_mem_ite_nil (by simp)
    · simp

theorem fits_update? {id : String} {props : Fields Float} (hid : Named id)
    (hprops : ∀ field ∈ props, InPlace field) : ∀ a ∈ update? id props, a.Fits := by
  unfold update?
  split
  · simp
  · rw [List.forall_mem_singleton]
    exact ⟨hid, hprops⟩

theorem fits_repaint (f : Features Float) : ∀ a ∈ (repaint f).1, a.Fits := by
  unfold repaint
  split
  · split <;> simp [Action.Fits]
  · simp

variable {p : Plan Float}

theorem fits_changeAll (h : Roomy p.duration) (htempered : p.features.Tempered)
    (hcanvas : ∀ id ∈ p.canvas, Named id) : ∀ a ∈ changeAll p, a.Fits := by
  refine List.forall_mem_flatMap.2 fun e he => ?_
  have hid := hcanvas e.id (List.mem_map_of_mem (List.mem_append_right _ he))
  exact List.forall_mem_append.2 ⟨fits_update? hid (inPlace_changes htempered e),
    Animation.fits hid h⟩

theorem fits_change (h : Roomy p.duration) (htempered : p.features.Tempered) {e : Element Float}
    (hid : Named e.id) : ∀ a ∈ (change p e).1, a.Fits := by
  refine List.forall_mem_append.2 ⟨fits_update? hid ?_, Animation.fits hid h⟩
  refine List.forall_mem_append.2 ⟨inPlace_changes htempered e, ?_⟩
  split <;> simp +decide

theorem within_strokeWidth {f : Features Float} (h : f.Tempered) :
    Within "strokeWidth" (strokeWidth f) := by
  unfold strokeWidth
  cases hw : nonzero? f.strokeWidth with
  | some w => exact within_nonzero h.strokeWidth hw
  | none =>
      rw [Option.getD_none]
      split <;> decide

theorem inPlace_extras {f : Features Float} (h : f.Tempered) :
    ∀ field ∈ extras f, InPlace field := by
  unfold extras
  split
  · rename_i o ho
    simp [h.opacity o ho]
  · simp

theorem fits_fresh (htempered : p.features.Tempered) {id : String} (hid : Named id)
    (index : Nat) : (fresh p id index).1.Fits := by
  have hwidth := within_strokeWidth htempered
  have hextras := inPlace_extras htempered
  have hsize : ∀ size : Float, Within "fontSize" (Scalar.clamp size 18.0 96.0) := fun size =>
    within_of_bounds (b := ⟨1.0, none⟩) rfl (Binary.not_lt_of_clamp (by decide)) (by simp)
  unfold fresh
  dsimp only
  split
  · exact fits_circle hid (by simp) (by simp) hwidth hextras
  · exact fits_rect hid (by simp) (by simp) hwidth hextras
  · exact fits_text hid (hsize _) (by simp) hextras

theorem fits_create (h : Roomy p.duration) (htempered : p.features.Tempered) (n : Nat) :
    ∀ a ∈ (create p n).1, a.Fits := by
  refine List.forall_mem_flatMap.2 fun index _ => List.forall_mem_cons.2 ⟨?_, ?_⟩
  · exact fits_fresh htempered (named_id _) index
  · exact Animation.fits (named_id _) h

theorem fits_forNew (h : Roomy p.duration) (htempered : p.features.Tempered) (n : Nat) :
    (forNew p n).Fits :=
  List.forall_mem_append.2 ⟨fits_repaint _, fits_create h htempered n⟩

theorem fits_of_build {n : Nat} {d : Draft Float} (h : Roomy p.duration)
    (htempered : p.features.Tempered) (hcanvas : ∀ id ∈ p.canvas, Named id)
    (hd : build p n = .ok d) : d.Fits := by
  rcases build_cases hd with hall | rfl | ⟨e, he, rfl⟩
  · simp only [forAll?, Option.ite_none_right_eq_some, Option.some.injEq] at hall
    rw [← hall.2]
    exact List.forall_mem_append.2 ⟨fits_repaint _, fits_changeAll h htempered hcanvas⟩
  · exact fits_forNew h htempered n
  · exact List.forall_mem_append.2 ⟨fits_repaint _, fits_change h htempered
      (hcanvas _ (List.mem_map_of_mem he))⟩

end Edit

/-! ## Camera and weather -/

theorem Camera.fits {p : Plan Float} {anchor : String} {origin : Float × Float}
    (hanchor : Named anchor) (hstart : Settable p.beats.intro.start)
    (hfinish : Settable p.beats.settle.finish) : ∀ a ∈ motion p anchor origin, a.Fits := by
  have hzoom : Within "scale" (zoom p) := by
    unfold zoom
    split
    · decide
    · split <;> decide
  simp +decide [motion, hanchor, hstart, hfinish, hzoom]

theorem Weather.fits {p : Plan Float} (h : Settable p.duration) (n : Nat) (parent : Option String)
    (origin : Float × Float) : ∀ a ∈ overlay p n parent origin, a.Fits := by
  unfold overlay
  dsimp only
  split
  · simp
  · refine List.forall_mem_cons.2 ⟨by simp, List.forall_mem_flatMap.2 fun k _ => ?_⟩
    simp +decide [drop, h]
  · refine List.forall_mem_cons.2 ⟨by simp, List.forall_mem_flatMap.2 fun k _ => ?_⟩
    simp +decide [flake, h]

end Storyboard
