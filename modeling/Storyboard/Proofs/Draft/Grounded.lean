import Storyboard.Figure.Motion
import Storyboard.Scene
import Storyboard.Shape
import Storyboard.Proofs.Mention
/-!
# Drafts that stand on the ground

A draft is grounded when it adds the numbers that it gives out, in order, and refers to nothing
but known elements and those that it added before.  Scenes, figures and shapes are grounded in
nothing at all.
-/

namespace Storyboard

open Storyboard.Action

variable {α : Type}

/-- A draft that starts after `n` adds the next numbers, refers to known elements and to its own,
and has its root among these. -/
structure Draft.Grounded (known : List String) (n : Nat) (d : Draft α) : Prop where
  adds : ∃ count, d.issued = n + count ∧ Adds n count d.actions
  closed : Closed known (d.actions.map toValue)
  rooted : ∀ root, d.root = some root → root ∈ d.actions.filterMap added?

variable [Scalar α]

/-! ## Scenes -/

namespace Scene

theorem grounded_inGroup {n count : Nat} {summary title : String} {actions : List (Action α)}
    (hadds : Adds (n + 1) count actions) (hclosed : Closed [ref n 1] (actions.map toValue)) :
    (inGroup n (count + 1) summary title actions).Grounded [] n where
  adds := ⟨count + 1, rfl, adds_cons rfl hadds⟩
  closed := closed_cons_toValue.2 ⟨by simp [group], hclosed⟩
  rooted := by
    rintro root ⟨⟩
    simp [inGroup, group]

theorem grounded_sunset (p : Plan α) (n : Nat) : (sunset p n).Grounded [] n :=
  grounded_inGroup rfl (by simp [closed_cons_toValue, Closed, rect, circle])

theorem grounded_ocean (p : Plan α) (n : Nat) : (ocean p n).Grounded [] n :=
  grounded_inGroup rfl (by simp [closed_cons_toValue, Closed, rect, circle])

theorem grounded_desert (p : Plan α) (n : Nat) : (desert p n).Grounded [] n :=
  grounded_inGroup rfl (by simp [closed_cons_toValue, Closed, rect, circle, path])

theorem grounded_meadow (p : Plan α) (n : Nat) : (meadow p n).Grounded [] n :=
  grounded_inGroup rfl (by simp [closed_cons_toValue, Closed, rect, circle])

theorem grounded_generic (p : Plan α) (n : Nat) : (generic p n).Grounded [] n :=
  grounded_inGroup rfl (by simp [closed_cons_toValue, Closed, rect, circle])

theorem grounded_city (p : Plan α) (n : Nat) : (city p n).Grounded [] n := by
  have hhouse : ∀ i, Adds (n + 2 + 1 * i) 1 (house p (ref n 1) (ref n (3 + i)) i) := by
    intro i
    refine adds_cons ?_ rfl
    rw [added?_under, rect, added?_add, ref]
    congr 2
    omega
  refine grounded_inGroup (adds_cons rfl (adds_flatMap hhouse 5)) ?_
  refine closed_cons_toValue.2 ⟨by simp [rect], ?_⟩
  rw [List.map_flatMap]
  exact closed_flatMap fun i _ => by simp [house, closed_cons_toValue, Closed, rect]

theorem grounded_forest (p : Plan α) (n : Nat) : (forest p n).Grounded [] n := by
  have htree : ∀ i, Adds (n + 3 + 2 * i) 2
      (tree p (ref n 1) (ref n (4 + 2 * i)) (ref n (5 + 2 * i)) i) := by
    intro i
    refine adds_cons ?_ (adds_cons ?_ rfl)
    · rw [added?_under, rect, added?_add, ref]
      congr 2
      omega
    · rw [added?_under, circle, added?_add, ref]
      congr 2
      omega
  refine grounded_inGroup ?_ ?_
  · exact adds_append (j := 2) (k := 2 * 5) rfl (adds_flatMap htree 5)
  · rw [List.map_append, closed_append, List.map_flatMap]
    refine ⟨by simp [closed_cons_toValue, Closed, rect], closed_flatMap fun i _ => ?_⟩
    simp [tree, closed_cons_toValue, Closed, rect, circle]

theorem grounded_mountain (p : Plan α) (n : Nat) : (mountain p n).Grounded [] n := by
  have hcloud : ∀ i, Adds (n + 4 + 1 * i) 1
      (driftingCloud p (ref n 1) (ref n (5 + i)) i) := by
    intro i
    refine adds_cons ?_ rfl
    rw [added?_under, path, added?_add, ref]
    congr 2
    omega
  refine grounded_inGroup ?_ ?_
  · exact adds_append (j := 3) (k := 1 * 3) rfl (adds_flatMap hcloud 3)
  · rw [List.map_append, closed_append, List.map_flatMap]
    refine ⟨by simp [closed_cons_toValue, Closed, rect, circle, path],
      closed_flatMap fun i _ => ?_⟩
    simp [driftingCloud, closed_cons_toValue, Closed, path]

theorem grounded_space (p : Plan α) (n : Nat) : (space p n).Grounded [] n := by
  have hstar : ∀ i, Adds (n + 2 + 1 * i) 1 (star p (ref n 1) (ref n (3 + i)) i) := by
    intro i
    refine adds_cons ?_ rfl
    rw [added?_under, circle, added?_add, ref]
    congr 2
    omega
  refine grounded_inGroup ?_ ?_
  · refine adds_append (j := 13) (k := 1) ?_ rfl
    exact adds_append (j := 1) (k := 1 * 12) rfl (adds_flatMap hstar 12)
  · rw [List.map_append, closed_append, List.map_append, closed_append, List.map_flatMap]
    refine ⟨⟨by simp [closed_cons_toValue, Closed, rect], closed_flatMap fun i _ => ?_⟩, ?_⟩
    · simp [star, closed_cons_toValue, Closed, circle]
    · simp [closed_cons_toValue, Closed, circle]

theorem grounded_neonStudio (p : Plan α) (n : Nat) : (neonStudio p n).Grounded [] n := by
  have hstrip : ∀ i, Adds (n + 3 + 1 * i) 1 (strip p (ref n 1) (ref n (4 + i)) i) := by
    intro i
    refine adds_cons ?_ rfl
    rw [added?_under, rect, added?_add, ref]
    congr 2
    omega
  refine grounded_inGroup ?_ ?_
  · exact adds_append (j := 2) (k := 1 * 4) rfl (adds_flatMap hstrip 4)
  · rw [List.map_append, closed_append, List.map_flatMap]
    refine ⟨by simp [closed_cons_toValue, Closed, rect], closed_flatMap fun i _ => ?_⟩
    simp [strip, closed_cons_toValue, Closed, rect]

theorem grounded_of_builder? {a : Archetype} {make : Plan α → Nat → Draft α}
    (h : builder? a = some make) (p : Plan α) (n : Nat) : (make p n).Grounded [] n := by
  cases a <;> simp only [builder?, Option.some.injEq, reduceCtorEq] at h <;> subst h
  case sunset => exact grounded_sunset p n
  case ocean => exact grounded_ocean p n
  case city => exact grounded_city p n
  case forest => exact grounded_forest p n
  case mountain => exact grounded_mountain p n
  case desert => exact grounded_desert p n
  case space => exact grounded_space p n
  case neonStudio => exact grounded_neonStudio p n
  case meadow => exact grounded_meadow p n
  case genericScene => exact grounded_generic p n

theorem grounded_of_build? {p : Plan α} {n : Nat} {d : Draft α} (h : build? p n = some d) :
    d.Grounded [] n := by
  obtain ⟨make, hmake, rfl⟩ := Option.map_eq_some_iff.1 h
  exact grounded_of_builder? hmake p n

end Scene

/-! ## Figures -/

namespace Motion

variable {rig : Rig α} {b : Beats α} {a : Action α}

theorem mentions_idling (h : a ∈ idling rig b) :
    a.added? = none ∧ ∀ s ∈ a.referred, s = rig.group ∨ ∃ l, rig.limb l = some s := by
  revert a
  unfold idling
  split <;> simp

theorem mentions_waving (h : a ∈ waving rig b) :
    a.added? = none ∧ ∀ s ∈ a.referred, s = rig.group ∨ ∃ l, rig.limb l = some s := by
  revert a
  unfold waving
  split
  · simp
  · rename_i arm harm
    simpa using .inr ⟨_, harm⟩

theorem mentions_walking (h : a ∈ walking rig b) :
    a.added? = none ∧ ∀ s ∈ a.referred, s = rig.group ∨ ∃ l, rig.limb l = some s := by
  unfold walking at h
  split at h
  · rename_i legLeft legRight armLeft armRight hll hlr hal har
    split at h
    · simp at h
    · have hlimbs : ∀ s ∈ [legLeft, legRight, armLeft, armRight], ∃ l, rig.limb l = some s := by
        simp only [List.mem_cons, List.not_mem_nil, or_false]
        rintro s (rfl | rfl | rfl | rfl)
        · exact ⟨_, hll⟩
        · exact ⟨_, hlr⟩
        · exact ⟨_, hal⟩
        · exact ⟨_, har⟩
      simp only [swing, List.mem_append, List.mem_cons, List.not_mem_nil, or_false] at h
      rcases h with (((h | h) | h) | h) | h
      · rcases h with rfl | rfl | rfl <;> simp [hlimbs]
      · rcases h with rfl | rfl | rfl <;> simp [hlimbs]
      · rcases h with rfl | rfl | rfl <;> simp [hlimbs]
      · rcases h with rfl | rfl | rfl <;> simp [hlimbs]
      · rcases h with rfl | rfl | rfl | rfl | rfl | rfl | rfl <;> simp
  · simp at h

theorem mentions {m : Motion} (h : a ∈ m.keyframes rig b) :
    a.added? = none ∧ ∀ s ∈ a.referred, s = rig.group ∨ ∃ l, rig.limb l = some s := by
  cases m with
  | idle => exact mentions_idling h
  | wave => exact mentions_waving h
  | waveAndIdle =>
      rcases List.mem_append.1 h with h | h
      · exact mentions_waving h
      · exact mentions_idling h
  | walk => exact mentions_walking h
  | bounce =>
      simp only [keyframes, bouncing, List.mem_cons, List.not_mem_nil, or_false] at h
      rcases h with rfl | rfl | rfl | rfl | rfl <;> simp
  | spin =>
      simp only [keyframes, spinning, List.mem_cons, List.not_mem_nil, or_false] at h
      rcases h with rfl | rfl <;> simp
  | pulse =>
      simp only [keyframes, pulsing, List.mem_cons, List.not_mem_nil, or_false] at h
      rcases h with rfl | rfl | rfl <;> simp

theorem mentions_ofRig {preset : MotionPreset} (h : a ∈ ofRig preset rig b) :
    a.added? = none ∧ ∀ s ∈ a.referred, s = rig.group ∨ ∃ l, rig.limb l = some s := by
  unfold ofRig at h
  split at h
  · exact mentions (m := .idle) h
  · exact mentions h

end Motion

namespace Rig

/-- The shapes of a figure take the numbers after that of its group. -/
theorem adds_shapes (p : Plan α) (n : Nat) :
    Adds (n + 1) (partNames (buildOf p)).length ((shapes p n).map (under (ref n 1))) := by
  unfold shapes
  cases buildOf p <;> rfl

theorem referred_of_mem_shapes {p : Plan α} {n : Nat} {a : Action α}
    (h : a ∈ (shapes p n).map (under (ref n 1))) : a.referred = [ref n 1] := by
  unfold shapes at h
  obtain ⟨b, hb, rfl⟩ := List.mem_map.1 h
  cases hbuild : buildOf p <;>
    simp only [hbuild, List.mem_cons, List.not_mem_nil, or_false] at hb
  case robot => rcases hb with rfl | rfl | rfl | rfl | rfl | rfl <;> rfl
  case blob => rcases hb with rfl | rfl | rfl | rfl <;> rfl
  case stick => rcases hb with rfl | rfl | rfl | rfl | rfl | rfl <;> rfl

theorem limb_mem {p : Plan α} {n : Nat} {l : Limb} {s : String}
    (h : (ofPlan p n).limb l = some s) :
    s ∈ ((shapes p n).map (under (ref n 1))).filterMap added? := by
  have hbuild : buildOf p ≠ .blob := by
    intro hblob
    simp [ofPlan, hblob] at h
  have hadds : _ = _ := adds_shapes p n
  rw [hadds]
  cases hb : buildOf p with
  | blob => exact absurd hb hbuild
  | robot => cases l <;> simp_all [ofPlan, partNames, List.range'_succ, ref]
  | stick => cases l <;> simp_all [ofPlan, partNames, List.range'_succ, ref]

theorem grounded_animated (p : Plan α) (n : Nat) : (animated p n).Grounded [] n := by
  have hmotion : ∀ a ∈ Motion.ofRig p.motion (ofPlan p n) p.beats, a.added? = none ∧
      ∀ s ∈ a.referred, s = ref n 1 ∨ ∃ l, (ofPlan p n).limb l = some s :=
    fun _ => Motion.mentions_ofRig
  have hadds := adds_cons (a := Action.group (ref n 1) (ofPlan p n).x (ofPlan p n).y) rfl
    (adds_shapes p n)
  refine ⟨⟨_, ?_, adds_append_none hadds fun a ha => (hmotion a ha).1⟩, ?_, ?_⟩
  · show n + 1 + (partNames (buildOf p)).length = n + ((partNames (buildOf p)).length + 1)
    omega
  · show Closed [] ((Action.group (ref n 1) _ _ :: (shapes p n).map (under (ref n 1)) ++ _).map
      toValue)
    rw [List.cons_append, List.map_cons, closed_cons_toValue, List.map_append, closed_append,
      addedIds_map_toValue]
    refine ⟨by simp [Action.group], closed_of_referred fun a ha s hs => ?_,
      closed_of_referred fun a ha s hs => ?_⟩
    · rw [referred_of_mem_shapes ha, List.mem_singleton] at hs
      simp [hs, Action.group]
    · rcases (hmotion a ha).2 s hs with rfl | ⟨l, hl⟩
      · simp [Action.group]
      · exact List.mem_append_left _ (limb_mem hl)
  · rintro root ⟨⟩
    simp [animated, draft, ofPlan, Action.group]

end Rig

/-! ## Shapes -/

theorem Shape.grounded_build (p : Plan α) (n : Nat) : (build p n).Grounded [] n := by
  have helement : ∃ kind props, element p (Placeholder.id (n + 1)) =
      .add kind (Placeholder.id (n + 1)) props .unstated := by
    by_cases houtlined : outlined p = true
    · exact ⟨_, _, if_pos houtlined⟩
    · exact ⟨_, _, if_neg houtlined⟩
  have hdrawing : ∀ a ∈ drawing p (Placeholder.id (n + 1)), a.added? = none ∧
      ∀ s ∈ a.referred, s = Placeholder.id (n + 1) := by
    unfold drawing
    split <;> simp
  obtain ⟨kind, props, helement⟩ := helement
  refine ⟨⟨1, rfl, ?_⟩, ?_, by rintro root ⟨⟩⟩
  · rw [build, helement]
    exact adds_cons rfl (adds_of_none fun a ha => (hdrawing a ha).1)
  · rw [build, helement, List.map_cons, closed_cons_toValue]
    refine ⟨by simp, closed_of_referred fun a ha s hs => ?_⟩
    rw [(hdrawing a ha).2 s hs]
    simp

end Storyboard
