import Mathlib.Tactic.NormNum
import Mathlib.Tactic.Linarith
import Storyboard.Proofs.Composition.Tracks
import Storyboard.Proofs.Draft.Canvas
import Storyboard.Scalar.Exact
/-!
# Drafts in time

In exact arithmetic every generator sets its keyframes between zero and the duration, and on every
track one after the other: each track has the times of one builder, which are rising shares of the
duration, and parts that are repeated have elements of their own.
-/

namespace Storyboard

open Storyboard.Action
open Stamp (Rising Separate SameTrack)

@[simp] theorem Action.stamp?_key (element property : String) (time value : Rat)
    (easing : String) :
    (key element property time value easing).stamp? = some ⟨element, property, time⟩ :=
  rfl

/-- Keyframes from zero to `d`, rising on every track. -/
structure Timely (d : Rat) (as : List (Action Rat)) : Prop where
  rising : Rising (stampsOf as)
  timed : ∀ s ∈ stampsOf as, 0 ≤ s.time ∧ s.time ≤ d

variable {d : Rat} {as bs : List (Action Rat)}

@[simp] theorem timely_nil (d : Rat) : Timely d [] := ⟨List.Pairwise.nil, by simp⟩

theorem timely_cons {a : Action Rat} :
    Timely d (a :: as) ↔ (∀ s ∈ a.stamp?, (0 ≤ s.time ∧ s.time ≤ d) ∧
      ∀ t ∈ stampsOf as, s.element = t.element → s.property = t.property → s.time < t.time) ∧
        Timely d as := by
  cases hstamp : a.stamp? with
  | none =>
      have hsame : stampsOf (a :: as) = stampsOf as := by simp [stampsOf_cons, hstamp]
      simp only [Option.mem_def, reduceCtorEq, false_imp_iff, implies_true, true_and]
      exact ⟨fun h => ⟨hsame ▸ h.rising, hsame ▸ h.timed⟩,
        fun h => ⟨hsame ▸ h.rising, hsame ▸ h.timed⟩⟩
  | some s =>
      have hsplit : stampsOf (a :: as) = s :: stampsOf as := by simp [stampsOf_cons, hstamp]
      simp only [Option.mem_def, Option.some.injEq, forall_eq']
      constructor
      · rintro ⟨hrising, htimed⟩
        rw [hsplit] at hrising htimed
        obtain ⟨hfirst, hrest⟩ := List.pairwise_cons.1 hrising
        exact ⟨⟨htimed s List.mem_cons_self, fun t ht he hp => hfirst t ht ⟨he, hp⟩⟩, hrest,
          fun t ht => htimed t (List.mem_cons_of_mem _ ht)⟩
      · rintro ⟨⟨hs, hfirst⟩, hrest⟩
        refine ⟨?_, ?_⟩ <;> rw [hsplit]
        · exact List.pairwise_cons.2 ⟨fun t ht hsame => hfirst t ht hsame.1 hsame.2, hrest.rising⟩
        · exact List.forall_mem_cons.2 ⟨hs, hrest.timed⟩

theorem Timely.mono {d' : Rat} (h : Timely d as) (hle : d ≤ d') : Timely d' as :=
  ⟨h.rising, fun s hs => ⟨(h.timed s hs).1, (h.timed s hs).2.trans hle⟩⟩

theorem Timely.append (ha : Timely d as) (hb : Timely d bs)
    (h : ∀ s ∈ stampsOf as, ∀ t ∈ stampsOf bs, s.element ≠ t.element) : Timely d (as ++ bs) := by
  constructor <;> rw [stampsOf_append]
  · exact Stamp.rising_append ha.rising hb.rising (Stamp.separate_of_element h)
  · exact List.forall_mem_append.2 ⟨ha.timed, hb.timed⟩

/-- Parts that each move one element, with numbers of their own. -/
theorem timely_flatMap {f : Nat → List (Action Rat)} {number : Nat → Nat}
    (hnumber : Function.Injective number) (h : ∀ i, Timely d (f i))
    (helement : ∀ i, ∀ s ∈ stampsOf (f i), s.element = Placeholder.id (number i)) (count : Nat) :
    Timely d ((List.range count).flatMap f) := by
  constructor <;> rw [stampsOf_flatMap]
  · refine Stamp.rising_flatMap (fun i _ => (h i).rising) (List.nodup_range.imp fun hne => ?_)
    refine Stamp.separate_of_element fun s hs t ht heq => hne (hnumber ?_)
    rw [helement _ s hs, helement _ t ht] at heq
    exact Placeholder.id_injective heq
  · intro s hs
    obtain ⟨i, -, hi⟩ := List.mem_flatMap.1 hs
    exact (h i).timed s hi

/-! ## Times -/

@[simp] theorem scalar_zero : (0.0 : Rat) = 0 := by norm_num

/-- A share of a duration lies within it. -/
theorem share_within (share : Rat) (h : 0 < d) (hshare : 0 < share ∧ share ≤ 1) :
    0 < d * share ∧ 0 ≤ d * share ∧ d * share ≤ d := by
  have hpos : 0 < d * share := mul_pos h hshare.1
  exact ⟨hpos, hpos.le, mul_le_of_le_one_right h.le hshare.2⟩

/-- Half of a duration lies properly within it. -/
theorem half_within (h : 0 < d) :
    0 < d * (0.5 : Rat) ∧ 0 ≤ d * (0.5 : Rat) ∧ d * (0.5 : Rat) ≤ d ∧ d * (0.5 : Rat) < d := by
  norm_num [h, h.le]

theorem le_scalar_max (x y : Rat) : x ≤ Scalar.max x y ∧ y ≤ Scalar.max x y := by
  unfold Scalar.max
  split
  · rename_i hlt
    exact ⟨hlt.le, le_refl _⟩
  · rename_i hlt
    exact ⟨le_refl _, not_lt.1 hlt⟩

/-! ## Scenes -/

namespace Scene

variable {p : Plan Rat}

theorem timely_inGroup {n count : Nat} {summary title : String} :
    Timely d (inGroup n count summary title as).actions ↔ Timely d as := by
  simp [inGroup, timely_cons]

theorem ref_eq_ref_iff {n j k : Nat} : ref n j = ref n k ↔ j = k := by
  rw [ref, ref, Placeholder.id_injective.eq_iff]
  omega

theorem timely_sunset (h : 0 < p.duration) (n : Nat) : Timely p.duration (sunset p n).actions := by
  have hfade := share_within 0.4 h (by norm_num)
  simp [sunset, timely_inGroup, timely_cons, stampsOf_cons, ref_eq_ref_iff, h, h.le, hfade]

theorem timely_ocean (h : 0 < p.duration) (n : Nat) : Timely p.duration (ocean p n).actions := by
  have hfade := share_within 0.3 h (by norm_num)
  simp [ocean, timely_inGroup, timely_cons, stampsOf_cons, h, h.le, hfade]

theorem timely_desert (h : 0 < p.duration) (n : Nat) : Timely p.duration (desert p n).actions := by
  simp [desert, timely_inGroup, timely_cons, stampsOf_cons, h, h.le]

theorem timely_meadow (h : 0 < p.duration) (n : Nat) : Timely p.duration (meadow p n).actions := by
  have hfade := share_within 0.4 h (by norm_num)
  simp [meadow, timely_inGroup, timely_cons, stampsOf_cons, h.le, hfade]

theorem timely_generic (h : 0 < p.duration) (n : Nat) :
    Timely p.duration (generic p n).actions := by
  simp [generic, timely_inGroup, timely_cons, stampsOf_cons, h, h.le]

/-- The parts of a scene that are repeated take the numbers from `first` on, `width` for each. -/
theorem injective_numbers (n first : Nat) {width : Nat} (hwidth : 0 < width) :
    Function.Injective fun i => n + (first + width * i) := by
  intro i j heq
  exact Nat.eq_of_mul_eq_mul_left hwidth (by simpa using heq)

theorem timely_city (h : 0 < p.duration) (n : Nat) : Timely p.duration (city p n).actions := by
  have hlate : ∀ i : Nat, 0 < Scalar.min p.duration (1.5 + Scalar.ofNat i * 0.2) ∧
      Scalar.min p.duration (1.5 + Scalar.ofNat i * 0.2) ≤ p.duration := by
    intro i
    have hpos : (0 : Rat) < 1.5 + (i : Rat) * 0.2 := by positivity
    unfold Scalar.min
    split
    · rename_i hlt
      exact ⟨hpos, hlt.le⟩
    · exact ⟨h, le_refl _⟩
  have hhouses := timely_flatMap (injective_numbers n 3 Nat.one_pos) (d := p.duration)
    (f := fun i => house p (ref n 1) (ref n (3 + i)) i)
    (fun i => by simp [house, timely_cons, stampsOf_cons, h.le, hlate i, (hlate i).1.le])
    (fun i => by simp [house, stampsOf_cons, ref])
  simpa [city, timely_inGroup, timely_cons] using hhouses 5

theorem timely_forest (h : 0 < p.duration) (n : Nat) : Timely p.duration (forest p n).actions := by
  have hhalf := half_within h
  have htrees := timely_flatMap (injective_numbers n 5 Nat.two_pos) (d := p.duration)
    (f := fun i => tree p (ref n 1) (ref n (4 + 2 * i)) (ref n (5 + 2 * i)) i)
    (fun i => by simp [tree, timely_cons, stampsOf_cons, h, h.le, hhalf])
    (fun i => by simp [tree, stampsOf_cons, ref])
  simpa [forest, timely_inGroup, timely_cons] using htrees 5

theorem timely_mountain (h : 0 < p.duration) (n : Nat) :
    Timely p.duration (mountain p n).actions := by
  have hclouds := timely_flatMap (injective_numbers n 5 Nat.one_pos) (d := p.duration)
    (f := fun i => driftingCloud p (ref n 1) (ref n (5 + i)) i)
    (fun i => by simp [driftingCloud, timely_cons, stampsOf_cons, h, h.le])
    (fun i => by simp [driftingCloud, stampsOf_cons, ref])
  simpa [mountain, timely_inGroup, timely_cons] using hclouds 3

theorem timely_neonStudio (h : 0 < p.duration) (n : Nat) :
    Timely p.duration (neonStudio p n).actions := by
  have hhalf := half_within h
  have hstrips := timely_flatMap (injective_numbers n 4 Nat.one_pos) (d := p.duration)
    (f := fun i => strip p (ref n 1) (ref n (4 + i)) i)
    (fun i => by simp [strip, timely_cons, stampsOf_cons, h, h.le, hhalf])
    (fun i => by simp [strip, stampsOf_cons, ref])
  simpa [neonStudio, timely_inGroup, timely_cons] using hstrips 4

theorem timely_space (h : 0 < p.duration) (n : Nat) : Timely p.duration (space p n).actions := by
  have hhalf := half_within h
  have hstar : ∀ i, ∀ s ∈ stampsOf (star p (ref n 1) (ref n (3 + i)) i),
      s.element = ref n (3 + 1 * i) := by
    simp [star, stampsOf_cons]
  have hstars := timely_flatMap (injective_numbers n 3 Nat.one_pos) (d := p.duration)
    (f := fun i => star p (ref n 1) (ref n (3 + i)) i)
    (fun i => by simp [star, timely_cons, stampsOf_cons, h, h.le, hhalf]) hstar
  unfold space
  rw [timely_inGroup]
  refine Timely.append (by simpa [timely_cons] using hstars 12)
    (by simp [timely_cons, stampsOf_cons, h, h.le, hhalf]) fun s hs t ht heq => ?_
  -- The planet comes after the twelve stars.
  obtain ⟨i, hi, hs⟩ : ∃ i, i < 12 ∧ s ∈ stampsOf (star p (ref n 1) (ref n (3 + i)) i) := by
    simpa [stampsOf_cons] using hs
  have hplanet : t.element = ref n 15 := by
    revert ht t
    simp [stampsOf_cons]
  rw [hstar i s hs, hplanet, ref_eq_ref_iff] at heq
  omega

theorem timely_of_builder? {a : Archetype} {make : Plan Rat → Nat → Draft Rat}
    (ha : builder? a = some make) (h : 0 < p.duration) (n : Nat) :
    Timely p.duration (make p n).actions := by
  cases a <;> simp only [builder?, Option.some.injEq, reduceCtorEq] at ha <;> subst ha
  case sunset => exact timely_sunset h n
  case ocean => exact timely_ocean h n
  case city => exact timely_city h n
  case forest => exact timely_forest h n
  case mountain => exact timely_mountain h n
  case desert => exact timely_desert h n
  case space => exact timely_space h n
  case neonStudio => exact timely_neonStudio h n
  case meadow => exact timely_meadow h n
  case genericScene => exact timely_generic h n

end Scene

/-! ## Figures -/

/-- The beats follow each other from zero to `d`. -/
structure Beats.Stepped (b : Beats Rat) (d : Rat) : Prop where
  start : b.intro.start = 0
  rise : 0 < b.intro.finish
  mid : b.intro.finish < b.action.mid
  settle : b.action.mid < b.settle.start
  finish : b.settle.start < b.settle.finish
  last : b.settle.finish = d

theorem Beats.stepped_ofDuration (h : 0 < d) : (Beats.ofDuration d).Stepped d := by
  constructor <;> norm_num [Beats.ofDuration, Beat.mid] <;> linarith

/-- The order of any two beats. -/
theorem Beats.Stepped.order {b : Beats Rat} (h : b.Stepped d) :
    (0 < b.action.mid ∧ 0 < b.settle.start ∧ 0 < d) ∧
      (0 ≤ b.intro.finish ∧ 0 ≤ b.action.mid ∧ 0 ≤ b.settle.start ∧ 0 ≤ d) ∧
      (b.intro.finish ≤ d ∧ b.action.mid ≤ d ∧ b.settle.start ≤ d) ∧
      (b.intro.finish < b.settle.start ∧ b.intro.finish < d ∧ b.action.mid < d) ∧
      b.settle.start < d := by
  obtain ⟨-, hrise, hmid, hsettle, hfinish, rfl⟩ := h
  refine ⟨⟨?_, ?_, ?_⟩, ⟨?_, ?_, ?_, ?_⟩, ⟨?_, ?_, ?_⟩, ⟨?_, ?_, ?_⟩, hfinish⟩ <;> linarith

theorem Rig.ref_eq_ref_iff {n j k : Nat} : Rig.ref n j = Rig.ref n k ↔ j = k := by
  rw [ref, ref, Placeholder.id_injective.eq_iff]
  omega

namespace Motion

variable {b : Beats Rat}

theorem timely_idling (h : b.Stepped d) (rig : Rig Rat) : Timely d (idling rig b) := by
  unfold idling
  split
  · exact timely_nil _
  · simp [timely_cons, stampsOf_cons, h.start, h.last, h.order]

theorem timely_waving (h : b.Stepped d) (rig : Rig Rat) : Timely d (waving rig b) := by
  unfold waving
  split
  · exact timely_nil _
  · simp [timely_cons, stampsOf_cons, h.mid, h.settle, h.order]

theorem timely_swing (h : b.Stepped d) (limb : String) (angle : Rat) :
    Timely d (swing limb angle b) := by
  simp [swing, timely_cons, stampsOf_cons, h.start, h.last, h.order]

theorem element_of_idling {rig : Rig Rat} :
    ∀ s ∈ stampsOf (idling rig b), s.element = rig.group := by
  unfold idling
  split <;> simp [stampsOf_cons]

theorem element_of_waving {rig : Rig Rat} :
    ∀ s ∈ stampsOf (waving rig b), rig.limb .armRight = some s.element := by
  unfold waving
  split
  · simp
  · rename_i arm harm
    simp [stampsOf_cons, harm]

/-- Limbs and group are different elements, and each motion moves them in its own beats. -/
theorem timely_keyframes (h : b.Stepped d) (m : Motion) (p : Plan Rat) (n : Nat) :
    Timely d (m.keyframes (Rig.ofPlan p n) b) := by
  have hidle := timely_idling h (Rig.ofPlan p n)
  have hwave := timely_waving h (Rig.ofPlan p n)
  cases m
  case idle => exact hidle
  case wave => exact hwave
  case walk =>
    by_cases hblob : Rig.buildOf p = .blob
    · simp [keyframes, walking, Rig.ofPlan, hblob]
    · simp only [keyframes, walking, Rig.ofPlan, hblob, if_false]
      split
      · exact timely_nil _
      · refine ((((timely_swing h _ _).append (timely_swing h _ _) ?_).append
          (timely_swing h _ _) ?_).append (timely_swing h _ _) ?_).append ?group ?_
        case group =>
          simp [timely_cons, stampsOf_cons, h.start, h.rise, h.mid, h.settle, h.last, h.order]
        all_goals simp [swing, stampsOf_cons, Rig.ref_eq_ref_iff, or_imp, forall_and]
  case bounce =>
    simp [keyframes, bouncing, timely_cons, stampsOf_cons, h.start, h.rise, h.mid, h.settle,
      h.last, h.order]
  case spin =>
    simp [keyframes, spinning, timely_cons, stampsOf_cons, h.order]
  case pulse =>
    simp [keyframes, pulsing, timely_cons, stampsOf_cons, h.start, h.last, h.order]
  case waveAndIdle =>
    refine hwave.append hidle fun s hs t ht heq => ?_
    have harm := element_of_waving s hs
    rw [heq, element_of_idling t ht] at harm
    simp [Rig.ofPlan, Rig.ref_eq_ref_iff] at harm

theorem timely_ofRig (h : b.Stepped d) (preset : MotionPreset) (p : Plan Rat) (n : Nat) :
    Timely d (ofRig preset (Rig.ofPlan p n) b) := by
  unfold ofRig
  split
  · exact timely_idling h _
  · exact timely_keyframes h _ p n

end Motion

theorem Rig.timely_animated {p : Plan Rat} (hbeats : p.beats.Stepped d) (n : Nat) :
    Timely d (Rig.animated p n).actions := by
  have hstill : stampsOf (Rig.draft p n).actions = [] := by
    have hshapes : ∀ a ∈ shapes p n, a.stamp? = none := by
      unfold shapes
      cases buildOf p <;> simp
    simpa [draft, stampsOf_cons, stampsOf, List.filterMap_map, Function.comp_def] using hshapes
  have hmotion := Motion.timely_ofRig hbeats p.motion p n
  unfold Rig.animated
  refine Timely.append ⟨?_, ?_⟩ hmotion ?_ <;> rw [hstill]
  · exact List.Pairwise.nil
  · simp
  · simp

/-! ## Shapes -/

theorem Shape.timely_build {p : Plan Rat} (h : 0 < p.duration) (n : Nat) :
    Timely p.duration (Shape.build p n).actions := by
  have helement : ∀ id, (element p id).stamp? = none := by
    intro id
    unfold element
    dsimp only
    split <;> rfl
  unfold build drawing
  split <;> simp [timely_cons, stampsOf_cons, helement, h, h.le]

/-! ## Photos -/

namespace Photo

variable {p : Plan Rat}

/-- An image on the canvas has an id of its own, and a new one the first number. -/
theorem timely_pan (hcanvas : ∀ id ∈ p.canvas, ∀ k, id ≠ Placeholder.id k)
    (n : Nat) : Timely (Scalar.max 3.0 p.duration) (pan p n).actions := by
  have hlong : 0 < Scalar.max 3.0 p.duration :=
    lt_of_lt_of_le (by norm_num) (le_scalar_max 3.0 p.duration).1
  have hid := target_id p 0.7
  rcases hfound : found? p with _ | e
  · rw [hfound, Option.map_none] at hid
    by_cases hparallax : p.mentions .parallax = true <;>
      by_cases hsilhouette : p.mentions .silhouette = true <;>
        simp [pan, place, hid, hparallax, hsilhouette, timely_cons, stampsOf_cons,
          Placeholder.id_injective.eq_iff, hlong, hlong.le]
  · rw [hfound, Option.map_some] at hid
    have hnew := hcanvas e.id (mem_canvas_of_found hfound)
    by_cases hparallax : p.mentions .parallax = true <;>
      by_cases hsilhouette : p.mentions .silhouette = true <;>
        simp [pan, place, hid, hparallax, hsilhouette, timely_cons, stampsOf_cons, hnew, hlong,
          hlong.le]

theorem timely_layers (hcanvas : ∀ id ∈ p.canvas, ∀ k, id ≠ Placeholder.id k)
    (n : Nat) : Timely (Scalar.max 4.0 p.duration) (layers p n).actions := by
  have hlong : 0 < Scalar.max 4.0 p.duration :=
    lt_of_lt_of_le (by norm_num) (le_scalar_max 4.0 p.duration).1
  have hhalf := half_within hlong
  have hid := target_id p 0.75
  rcases hfound : found? p with _ | e
  · rw [hfound, Option.map_none] at hid
    by_cases hframe : p.features.any [.boundingBox, .subject] = true <;>
      simp [layers, place, hid, hframe, timely_cons, stampsOf_cons,
        Placeholder.id_injective.eq_iff, hlong, hlong.le, hhalf]
  · rw [hfound, Option.map_some] at hid
    have hnew := hcanvas e.id (mem_canvas_of_found hfound)
    by_cases hframe : p.features.any [.boundingBox, .subject] = true <;>
      simp [layers, place, hid, hframe, timely_cons, stampsOf_cons, hnew,
        Placeholder.id_injective.eq_iff, hlong, hlong.le, hhalf]

theorem timely_build (hcanvas : ∀ id ∈ p.canvas, ∀ k, id ≠ Placeholder.id k) (n : Nat) :
    Timely (if p.wantsLayers then Scalar.max 4.0 p.duration else Scalar.max 3.0 p.duration)
      (build p n).actions := by
  unfold build
  split
  · exact timely_layers hcanvas n
  · exact timely_pan hcanvas n

end Photo

/-! ## Camera and weather -/

theorem Camera.timely_motion {p : Plan Rat} (hbeats : p.beats.Stepped d) (id : String)
    (origin : Rat × Rat) : Timely d (motion p id origin) := by
  simp [motion, timely_cons, stampsOf_cons, hbeats.start, hbeats.last, hbeats.order]

namespace Weather

/-- Particles that each move one element, numbered from the one after their group on. -/
theorem charted_particles {n : Nat} {group : Action Rat} {particle : Nat → List (Action Rat)}
    (hgroup : group.stamp? = Option.none) (h : ∀ k, Timely d (particle k))
    (helement : ∀ k, ∀ s ∈ stampsOf (particle k), s.element = Placeholder.id (n + 2 + k))
    (count : Nat) : Composition.Charted d n (n + 1 + count)
      (stampsOf (group :: (List.range count).flatMap particle)) := by
  have hall := timely_flatMap (fun _ _ heq => Nat.add_left_cancel heq) h helement count
  rw [stampsOf_cons, hgroup, Option.toList_none, List.nil_append]
  refine ⟨hall.rising, hall.timed, fun s hs => ?_⟩
  rw [stampsOf_flatMap] at hs
  obtain ⟨k, hk, hs⟩ := List.mem_flatMap.1 hs
  have := List.mem_range.1 hk
  exact ⟨n + 2 + k, by omega, by omega, helement k s hs⟩

theorem charted_overlay {p : Plan Rat} (h : 0 < p.duration) (n : Nat) (parent : Option String)
    (origin : Rat × Rat) : Composition.Charted p.duration n (issued p n)
      (stampsOf (overlay p n parent origin)) := by
  unfold overlay issued
  cases p.weather with
  | none => exact .nil _ _ _
  | rain =>
      exact charted_particles rfl (fun k => by simp [drop, timely_cons, stampsOf_cons, h, h.le])
        (fun k => by simp [drop, stampsOf_cons]) _
  | snow =>
      exact charted_particles rfl (fun k => by simp [flake, timely_cons, stampsOf_cons, h, h.le])
        (fun k => by simp [flake, stampsOf_cons]) _

end Weather

theorem Plan.laid {p : Plan Rat} (h : 0 < p.duration) (hbeats : p.beats.Stepped p.duration) :
    Composition.Laid p p.duration where
  camera id origin := by
    have hmotion := Camera.timely_motion hbeats id origin
    refine ⟨hmotion.rising, fun s hs => ⟨hmotion.timed s hs, ?_⟩⟩
    revert hs s
    simp [Camera.motion, Camera.properties]
  weather n parent origin := Weather.charted_overlay h n parent origin

end Storyboard
