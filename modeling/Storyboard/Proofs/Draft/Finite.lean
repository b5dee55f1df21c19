import Storyboard.Proofs.Draft.Fitting
import Storyboard.Proofs.Draft.Room
import Storyboard.Proofs.Finite
/-!
# Drafts in finite numbers

The generators compute places, sizes and times in a few steps from the numbers of a plan, so what
they make of a modest plan is in finite numbers.
-/

namespace Storyboard

open Storyboard.Action

/-! ## Actions -/

namespace Action

/-- All numbers of an action are finite. -/
def IsFinite (a : Action Float) : Prop := a.toValue.isFinite = true

theorem isFinite_add_iff {kind : ElementKind} {id : String} {props : Fields Float}
    {parent : Parent} :
    (add kind id props parent).IsFinite ↔ ∀ field ∈ props, field.2.isFinite = true := by
  cases parent <;> simp [IsFinite, toValue, wire, Parent.toFields]

@[simp] theorem isFinite_update_iff {id : String} {props : Fields Float} :
    (update id props).IsFinite ↔ ∀ field ∈ props, field.2.isFinite = true := by
  simp [IsFinite, toValue, wire]

@[simp] theorem isFinite_board_iff {props : Fields Float} :
    (board props).IsFinite ↔ ∀ field ∈ props, field.2.isFinite = true := by
  simp [IsFinite, toValue, wire]

@[simp] theorem isFinite_key_iff {id property easing : String} {time value : Float} :
    (key id property time value easing).IsFinite ↔
      Scalar.isFinite time = true ∧ Scalar.isFinite value = true := by
  by_cases h : easing = "" <;> simp [IsFinite, toValue, wire, key, frame, keyframePayload, h]

@[simp] theorem isFinite_under {parent : String} {a : Action Float} :
    (under parent a).IsFinite ↔ a.IsFinite := by
  cases a with
  | add => exact isFinite_add_iff.trans isFinite_add_iff.symm
  | _ => rfl

theorem isFinite_setAll {kind : ElementKind} {id : String} {fields extra : Fields Float}
    {parent : Parent} (h : ∀ field ∈ fields, field.2.isFinite = true)
    (hextra : ∀ field ∈ extra, field.2.isFinite = true) :
    (add kind id (Fields.setAll fields extra) parent).IsFinite :=
  isFinite_add_iff.2 fun _ hfield =>
    (Fields.mem_or_mem_of_mem_setAll hfield).elim (h _) (hextra _)

section

variable {id : String} {x y width height : Float} {fill stroke : Value Float}
  {strokeWidth : Float} {extra : Fields Float}

@[simp] theorem isFinite_rect (hx : Scalar.isFinite x = true) (hy : Scalar.isFinite y = true)
    (hwidth : Scalar.isFinite width = true) (hheight : Scalar.isFinite height = true)
    (hfill : fill.isFinite = true) (hstroke : stroke.isFinite = true)
    (hstrokeWidth : Scalar.isFinite strokeWidth = true)
    (hextra : ∀ field ∈ extra, field.2.isFinite = true) :
    (rect id x y width height fill stroke strokeWidth extra).IsFinite :=
  isFinite_setAll (by simp [strokeFields, *]) hextra

@[simp] theorem isFinite_circle {r : Float} (hx : Scalar.isFinite x = true)
    (hy : Scalar.isFinite y = true) (hr : Scalar.isFinite r = true)
    (hfill : fill.isFinite = true) (hstroke : stroke.isFinite = true)
    (hstrokeWidth : Scalar.isFinite strokeWidth = true)
    (hextra : ∀ field ∈ extra, field.2.isFinite = true) :
    (circle id x y r fill stroke strokeWidth extra).IsFinite :=
  isFinite_setAll (by simp [strokeFields, *]) hextra

@[simp] theorem isFinite_path {d : String} (hx : Scalar.isFinite x = true)
    (hy : Scalar.isFinite y = true) (hfill : fill.isFinite = true)
    (hstroke : stroke.isFinite = true) (hstrokeWidth : Scalar.isFinite strokeWidth = true)
    (hextra : ∀ field ∈ extra, field.2.isFinite = true) :
    (path id x y d fill stroke strokeWidth extra).IsFinite :=
  isFinite_setAll (by simp [strokeFields, *])
    fun field hfield => hextra field (List.mem_filter.1 hfield).1

@[simp] theorem isFinite_text {content : String} {fontSize : Float}
    (hx : Scalar.isFinite x = true) (hy : Scalar.isFinite y = true)
    (hsize : Scalar.isFinite fontSize = true) (hfill : fill.isFinite = true)
    (hextra : ∀ field ∈ extra, field.2.isFinite = true) :
    (text id x y content fontSize fill extra).IsFinite :=
  isFinite_setAll (by simp [*]) hextra

@[simp] theorem isFinite_group {parent : Parent} (hx : Scalar.isFinite x = true)
    (hy : Scalar.isFinite y = true) (hextra : ∀ field ∈ extra, field.2.isFinite = true) :
    (group id x y parent extra).IsFinite :=
  isFinite_setAll (by simp [*]) hextra

@[simp] theorem isFinite_image {href : Option String} (hx : Scalar.isFinite x = true)
    (hy : Scalar.isFinite y = true) (hwidth : Scalar.isFinite width = true)
    (hheight : Scalar.isFinite height = true)
    (hextra : ∀ field ∈ extra, field.2.isFinite = true) :
    (image id x y width height href extra).IsFinite := by
  refine isFinite_setAll ?_ hextra
  cases href with
  | none => simp [*]
  | some h => by_cases hempty : h = "" <;> simp [*]

end

end Action

/-- All numbers of some actions are finite. -/
def AllFinite (as : List (Action Float)) : Prop := ∀ a ∈ as, a.IsFinite

@[simp] theorem allFinite_nil : AllFinite [] := List.forall_mem_nil _

@[simp] theorem allFinite_cons {a : Action Float} {as : List (Action Float)} :
    AllFinite (a :: as) ↔ a.IsFinite ∧ AllFinite as :=
  List.forall_mem_cons

@[simp] theorem allFinite_append {as bs : List (Action Float)} :
    AllFinite (as ++ bs) ↔ AllFinite as ∧ AllFinite bs :=
  List.forall_mem_append

@[simp] theorem allFinite_flatMap {β : Type} {bs : List β} {f : β → List (Action Float)} :
    AllFinite (bs.flatMap f) ↔ ∀ b ∈ bs, AllFinite (f b) :=
  List.forall_mem_flatMap

@[simp] theorem allFinite_map_under {parent : String} {as : List (Action Float)} :
    AllFinite (as.map (under parent)) ↔ AllFinite as := by
  simp [AllFinite]

@[simp] theorem allFinite_ite_nil {c : Prop} [Decidable c] {as : List (Action Float)}
    (h : AllFinite as) : AllFinite (if c then as else []) :=
  forall_mem_ite_nil h

/-! ## Fills -/

theorem Gradient.isFinite_offset : ∀ last < Palette.limit, ∀ index < Palette.limit,
    Scalar.isFinite (offset index last : Float) = true := by
  decide +kernel

theorem Gradient.isFinite_stops {id : String} {colours : List String}
    (h : colours.length ≤ Palette.limit) : (stops id colours : Value Float).isFinite = true := by
  rw [stops, Value.isFinite_list_iff, List.forall_mem_map]
  intro part hpart
  obtain ⟨-, hindex, -⟩ := List.mem_zipIdx hpart
  have hoffset := isFinite_offset (colours.length - 1) (by omega) part.2 (by omega)
  simp [hoffset]

namespace Plan

variable {p : Plan Float}

theorem Modest.background (h : p.Modest) (id : String) {angle : Float}
    (hangle : Scalar.isFinite angle = true) : (p.background id angle).isFinite = true := by
  unfold Plan.background backgroundIn
  split
  · simp [Gradient.linear, hangle, Gradient.isFinite_stops h.palette]
  · rfl

theorem Modest.accent (h : p.Modest) (id : String) : (p.accent id).isFinite = true := by
  have hreverse : p.palette.toList.reverse.length ≤ Palette.limit := by
    rw [List.length_reverse]
    exact h.palette
  unfold Plan.accent accentIn
  split
  · simp [Gradient.radial, Gradient.isFinite_stops hreverse]
  · rfl

@[simp] theorem isFinite_colour (index : Nat) (default : String) :
    (p.colour index default).isFinite = true :=
  Value.isFinite_text _

end Plan

@[simp] theorem isFinite_of_tame {x : Float} (hx : Tame 0 x) : Scalar.isFinite x = true :=
  hx.finite (by decide)

@[simp] theorem isFinite_share {x c : Float} (hx : Tame 0 x) (hc : Slight c) :
    Scalar.isFinite (x * c) = true :=
  (hx.share hc).finite (by decide)

/-! ## Scenes -/

namespace Scene

variable {p : Plan Float}

theorem finite_sunset (h : p.Modest) (n : Nat) : AllFinite (sunset p n).actions := by
  simp +decide [sunset, inGroup, h.width, h.height, h.minDim, h.duration, h.background, h.accent]

theorem finite_ocean (h : p.Modest) (n : Nat) : AllFinite (ocean p n).actions := by
  simp +decide [ocean, inGroup, h.width, h.height, h.minDim, h.duration, h.background, h.accent]

theorem finite_desert (h : p.Modest) (n : Nat) : AllFinite (desert p n).actions := by
  simp +decide [desert, inGroup, h.width, h.height, h.minDim, h.duration, h.background, h.accent]

theorem finite_meadow (h : p.Modest) (n : Nat) : AllFinite (meadow p n).actions := by
  simp +decide [meadow, inGroup, h.width, h.height, h.minDim, h.duration, h.background]

theorem finite_generic (h : p.Modest) (n : Nat) : AllFinite (generic p n).actions := by
  simp +decide [generic, inGroup, h.width, h.height, h.minDim, h.duration, h.background]

theorem finite_house (h : p.Modest) (root id : String) {i : Nat} (hi : i < 5) :
    AllFinite (house p root id i) := by
  have hindex : Slight (Scalar.ofNat i) := slight_ofNat (by omega)
  have hscale : ∀ k < 3, Slight (0.5 + Scalar.ofNat k * 0.2) := by decide
  have hstart : ∀ k < 5, Slight (1.5 + Scalar.ofNat k * 0.2) := by decide
  have hstep : Tame 1 (p.width / 5.0) := h.width.quotient (by decide)
  have htall : Tame 2 (p.height * 0.35 * (0.5 + Scalar.ofNat (i % 3) * 0.2)) :=
    (h.height.share (by decide)).share (hscale _ (Nat.mod_lt i (by decide)))
  have hx : Scalar.isFinite (Scalar.ofNat i * (p.width / 5.0) + p.width / 5.0 * 0.15) = true :=
    ((Tame.times hindex hstep).add (hstep.share (by decide))).finite (by decide)
  have hy : Scalar.isFinite (p.height * 0.6 -
      p.height * 0.35 * (0.5 + Scalar.ofNat (i % 3) * 0.2)) = true :=
    ((h.height.share (by decide)).sub htall).finite (by decide)
  have hwidth : Scalar.isFinite (p.width / 5.0 * 0.7) = true :=
    (hstep.share (by decide)).finite (by decide)
  have htime := (h.duration.min (hstart i hi).tame).finite (by decide)
  simp +decide [house, hx, hy, hwidth, htall.finite, htime]

theorem finite_city (h : p.Modest) (n : Nat) : AllFinite (city p n).actions := by
  have hhouses : ∀ i < 5, AllFinite (house p (ref n 1) (ref n (3 + i)) i) :=
    fun i hi => finite_house h _ _ hi
  simpa +decide [city, inGroup, h.width, h.height, h.background] using hhouses

theorem finite_tree (h : p.Modest) (root trunk crown : String) {i : Nat} (hi : i < 5) :
    AllFinite (tree p root trunk crown i) := by
  have hindex : Slight (Scalar.ofNat (i + 1)) := slight_ofNat (by omega)
  have hground : Tame 1 (p.height * 0.7) := h.height.share (by decide)
  have hwidth : Tame 1 (p.width * 0.035) := h.width.share (by decide)
  have hheight : Tame 1 (p.height * 0.18) := h.height.share (by decide)
  have hplace : Tame 2 (p.width / 6.0 * Scalar.ofNat (i + 1)) :=
    (h.width.quotient (by decide)).share hindex
  have hleft : Scalar.isFinite (p.width / 6.0 * Scalar.ofNat (i + 1) - p.width * 0.035 / 2.0) =
      true := (hplace.sub (hwidth.quotient (by decide))).finite (by decide)
  have htop := (hground.sub hheight).finite (by decide)
  simp +decide [tree, h.width, h.height, h.minDim, h.duration, hplace.finite, hleft, htop]

theorem finite_forest (h : p.Modest) (n : Nat) : AllFinite (forest p n).actions := by
  have htrees : ∀ i < 5, AllFinite (tree p (ref n 1) (ref n (4 + 2 * i)) (ref n (5 + 2 * i)) i) :=
    fun i hi => finite_tree h _ _ _ hi
  simpa +decide [forest, inGroup, h.width, h.height, h.background] using htrees

theorem finite_driftingCloud (h : p.Modest) (root id : String) {i : Nat} (hi : i < 3) :
    AllFinite (driftingCloud p root id i) := by
  have hacross : ∀ k < 3, Slight (0.25 + Scalar.ofNat k * 0.25) := by decide
  have hdown : ∀ k < 2, Slight (0.2 + Scalar.ofNat k * 0.08) := by decide
  have hback : Slight 20.0 ∧ Slight 30.0 := by decide
  have hx : Tame 1 (p.width * (0.25 + Scalar.ofNat i * 0.25)) := h.width.share (hacross i hi)
  have hy := (h.height.share (hdown _ (Nat.mod_lt i (by decide)))).finite (by decide)
  simp +decide [driftingCloud, h.duration, hx.finite, hy, (hx.sub hback.1.tame).finite,
    (hx.add hback.2.tame).finite]

theorem finite_mountain (h : p.Modest) (n : Nat) : AllFinite (mountain p n).actions := by
  have hclouds : ∀ i < 3, AllFinite (driftingCloud p (ref n 1) (ref n (5 + i)) i) :=
    fun i hi => finite_driftingCloud h _ _ hi
  simpa +decide [mountain, inGroup, h.width, h.height, h.minDim, h.background, h.accent]
    using hclouds

theorem finite_star (h : p.Modest) (root id : String) {i : Nat} (hi : i < 12) :
    AllFinite (star p root id i) := by
  have hdown : ∀ k < 2, Slight (0.12 + Scalar.ofNat k * 0.18) := by decide
  have hx : Scalar.isFinite (p.width * 0.1 + Scalar.ofNat (i % 6) * (p.width * 0.14)) = true :=
    ((h.width.share (by decide)).add
      (Tame.times (slight_ofNat (by omega)) (h.width.share (by decide)))).finite (by decide)
  have hy := (h.height.share (hdown (i / 6) (by omega))).finite (by decide)
  have hr : Scalar.isFinite (Scalar.ofNat (3 + i % 3)) = true :=
    (slight_ofNat (by omega)).tame.finite (by decide)
  simp +decide [star, h.duration, hx, hy, hr]

theorem finite_space (h : p.Modest) (n : Nat) : AllFinite (space p n).actions := by
  have hstars : ∀ i < 12, AllFinite (star p (ref n 1) (ref n (3 + i)) i) :=
    fun i hi => finite_star h _ _ hi
  simpa +decide [space, inGroup, h.width, h.height, h.minDim, h.duration, h.background] using hstars

theorem finite_strip (h : p.Modest) (root id : String) {i : Nat} (hi : i < 4) :
    AllFinite (strip p root id i) := by
  have hx : Scalar.isFinite (p.width * 0.15 + Scalar.ofNat i * p.width * 0.2) = true :=
    ((h.width.share (by decide)).add
      ((Tame.times (slight_ofNat (by omega)) h.width).share (by decide))).finite (by decide)
  have hy : Scalar.isFinite (p.height * 0.18 + Scalar.ofNat (i % 2 * 40)) = true :=
    ((h.height.share (by decide)).add (slight_ofNat (by omega)).tame).finite (by decide)
  simp +decide [strip, h.width, h.duration, hx, hy]

theorem finite_neonStudio (h : p.Modest) (n : Nat) : AllFinite (neonStudio p n).actions := by
  have hstrips : ∀ i < 4, AllFinite (strip p (ref n 1) (ref n (4 + i)) i) :=
    fun i hi => finite_strip h _ _ hi
  simpa +decide [neonStudio, inGroup, h.width, h.height, h.background] using hstrips

theorem finite_of_builder? {archetype : Archetype} {make : Plan Float → Nat → Draft Float}
    (h : p.Modest) (hmake : builder? archetype = some make) (n : Nat) :
    AllFinite (make p n).actions := by
  cases archetype <;>
    simp only [builder?, Option.some.injEq, reduceCtorEq] at hmake <;> subst hmake
  case sunset => exact finite_sunset h n
  case ocean => exact finite_ocean h n
  case city => exact finite_city h n
  case forest => exact finite_forest h n
  case mountain => exact finite_mountain h n
  case desert => exact finite_desert h n
  case space => exact finite_space h n
  case neonStudio => exact finite_neonStudio h n
  case meadow => exact finite_meadow h n
  case genericScene => exact finite_generic h n

end Scene

/-! ## Figures and shapes -/

/-- The times of the beats that keyframes are set at are finite. -/
structure Beats.Timed (b : Beats Float) : Prop where
  start : Scalar.isFinite b.intro.start = true
  rise : Scalar.isFinite b.intro.finish = true
  mid : Scalar.isFinite b.action.mid = true
  settle : Scalar.isFinite b.settle.start = true
  finish : Scalar.isFinite b.settle.finish = true

theorem Beats.timed_ofDuration {d : Float} (h : Tame 0 d) : (Beats.ofDuration d).Timed where
  start := Tame.zero.finite (Nat.zero_le 10)
  rise := (h.share (by decide)).finite (by decide)
  mid := (((h.share (by decide)).add (h.share (by decide))).quotient (by decide)).finite (by decide)
  settle := (h.share (by decide)).finite (by decide)
  finish := h.finite (by decide)

theorem Plan.Modest.timed {p : Plan Float} (h : p.Modest) : p.beats.Timed :=
  h.beats ▸ Beats.timed_ofDuration h.duration

theorem Motion.finite {m : Motion} {rig : Rig Float} {b : Beats Float} (hx : Tame 1 rig.x)
    (hy : Tame 1 rig.y) (hb : b.Timed) : AllFinite (m.keyframes rig b) := by
  have hup : ∀ c, Slight c → Scalar.isFinite (rig.y - c) = true :=
    fun _ hc => (hy.sub hc.tame).finite (by decide)
  have hacross : ∀ c, Slight c → Scalar.isFinite (rig.x - c) = true ∧
      Scalar.isFinite (rig.x + c) = true :=
    fun _ hc => ⟨(hx.sub hc.tame).finite (by decide), (hx.add hc.tame).finite (by decide)⟩
  have hidle : AllFinite (idling rig b) := by
    unfold idling
    split
    · simp
    · simp +decide [hb.start, hb.mid, hb.finish, hy.finite, hup]
  have hwave : AllFinite (waving rig b) := by
    unfold waving
    split
    · simp
    · simp +decide [hb.rise, hb.mid, hb.settle]
  cases m with
  | idle => exact hidle
  | wave => exact hwave
  | waveAndIdle => exact allFinite_append.2 ⟨hwave, hidle⟩
  | walk =>
    simp only [keyframes, walking]
    split
    · split
      · simp
      · simp +decide [swing, hb.start, hb.rise, hb.mid, hb.settle, hb.finish, hy.finite, hup,
          hacross]
    · simp
  | bounce =>
    simp +decide [keyframes, bouncing, hb.start, hb.rise, hb.mid, hb.settle, hb.finish, hy.finite,
      hup]
  | spin => simp +decide [keyframes, spinning, hb.rise, hb.settle]
  | pulse => simp +decide [keyframes, pulsing, hb.start, hb.mid, hb.finish]

namespace Rig

variable {p : Plan Float}

theorem finite_shapes (n : Nat) : AllFinite (shapes p n) := by
  unfold shapes
  cases buildOf p <;> simp +decide

theorem finite_animated (h : p.Modest) (n : Nat) : AllFinite (animated p n).actions := by
  have hx : Tame 1 (ofPlan p n).x := h.width.share (by decide)
  have hy : Tame 1 (ofPlan p n).y := h.height.share (by decide)
  have hmotion : AllFinite (Motion.ofRig p.motion (ofPlan p n) p.beats) := by
    unfold Motion.ofRig
    split
    · exact Motion.finite (m := .idle) hx hy h.timed
    · exact Motion.finite hx hy h.timed
  simp [animated, draft, hx.finite, hy.finite, finite_shapes, hmotion]

end Rig

theorem Shape.finite_build {p : Plan Float} (h : p.Modest) (n : Nat) :
    AllFinite (build p n).actions := by
  have helement : (element p (Placeholder.id (n + 1))).IsFinite := by
    have hdashes : (if p.mentions .animate then (.text "8 6" : Value Float) else .null).isFinite =
        true := by
      split
      · exact Value.isFinite_text _
      · exact Value.isFinite_null
    unfold element
    dsimp only
    split <;> simp +decide [h.width, h.height, hdashes]
  have hdrawing : AllFinite (drawing p (Placeholder.id (n + 1))) := by
    unfold drawing
    split
    · simp +decide [h.duration]
    · simp
  simp [build, helement, hdrawing]

end Storyboard
