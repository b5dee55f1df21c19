import Storyboard.Generator
import Storyboard.Proofs.Draft.Grounded
/-!
# Drafts with one root

Scenes and moving figures are drafted as a tree of depth one: a group without a parent comes first,
and every other element hangs under it.  Elements are numbered in the order in which they are
added, keyframes move elements that are there already, and something moves.
-/

namespace Storyboard

open Storyboard.Action
open Placeholder (ceiling)

variable {α : Type}

namespace Action

/-- A new element hangs under the root; other actions add nothing. -/
def HangsUnder (root : String) : Action α → Prop
  | add _ _ _ parent => parent = .of root
  | _ => True

@[simp] theorem hangsUnder_under (root : String) (a : Action α) :
    (a.under root).HangsUnder root := by
  cases a with
  | add => rfl
  | _ => trivial

@[simp] theorem hangsUnder_key (root element property : String) (time value : α)
    (easing : String) : (key element property time value easing).HangsUnder root :=
  trivial

/-- An action that sets a keyframe. -/
def moves : Action α → Bool
  | keyframe _ => true
  | _ => false

@[simp] theorem moves_key (element property : String) (time value : α) (easing : String) :
    (key element property time value easing).moves = true :=
  rfl

theorem exists_keyframe_of_any_moves {as : List (Action α)} (h : as.any moves = true) :
    ∃ k, .keyframe k ∈ as := by
  obtain ⟨a, ha, hmoves⟩ := List.any_eq_true.1 h
  cases a with
  | keyframe k => exact ⟨k, ha⟩
  | _ => cases hmoves

theorem hangsUnder_of_added?_eq_none {root : String} {a : Action α} (h : a.added? = none) :
    a.HangsUnder root := by
  cases a with
  | add => simp at h
  | _ => trivial

end Action

/-- A draft that starts after `n` adds the next `count` elements, the first of them a group without
a parent that is the root of all others, and moves only what it has added. -/
structure Draft.Rooted (n count : Nat) (d : Draft α) : Prop where
  adds : Adds n count d.actions
  issued : d.issued = n + count
  root : d.root = some (Placeholder.id (n + 1))
  tree : ∃ props rest, d.actions = .add .group (Placeholder.id (n + 1)) props .unstated :: rest ∧
    ∀ a ∈ rest, a.HangsUnder (Placeholder.id (n + 1))
  targets : ∀ before k after, d.actions = before ++ .keyframe k :: after →
    k.element ∈ before.filterMap added?
  animated : ∃ k, .keyframe k ∈ d.actions

/-- In a closed sequence a keyframe moves what is known or was added before it. -/
theorem mem_of_closed_keyframe {known : List String} {before after : List (Action α)}
    {k : Keyframe α}
    (h : Closed known ((before ++ .keyframe k :: after).map toValue)) :
    k.element ∈ before.filterMap added? ++ known := by
  rw [List.map_append, closed_append, addedIds_map_toValue, List.map_cons,
    closed_cons_toValue] at h
  exact h.2.1 k.element (by simp [referred])

namespace Draft

variable {n count : Nat} {d : Draft α}

theorem Rooted.count_pos (h : d.Rooted n count) : 0 < count := by
  obtain ⟨props, rest, hactions, -⟩ := h.tree
  have hadds : _ = _ := h.adds
  rw [hactions] at hadds
  rcases count with _ | count
  · simp at hadds
  · exact Nat.succ_pos count

/-- A draft that is grounded in nothing is rooted when it starts with a group, hangs all else under
it and has a keyframe. -/
theorem rooted_of_grounded {props : Fields α} {rest : List (Action α)} (h : d.Grounded [] n)
    (hroot : d.root = some (Placeholder.id (n + 1)))
    (hactions : d.actions = .add .group (Placeholder.id (n + 1)) props .unstated :: rest)
    (hhangs : ∀ a ∈ rest, a.HangsUnder (Placeholder.id (n + 1)))
    (hmoves : ∃ k, .keyframe k ∈ rest) : ∃ count, d.Rooted n count := by
  obtain ⟨count, hissued, hadds⟩ := h.adds
  refine ⟨count, hadds, hissued, hroot, ⟨props, rest, hactions, hhangs⟩, ?_, ?_⟩
  · intro before k after hsplit
    have hclosed := h.closed
    rw [hsplit] at hclosed
    simpa using mem_of_closed_keyframe hclosed
  · obtain ⟨k, hk⟩ := hmoves
    exact ⟨k, hactions ▸ List.mem_cons_of_mem _ hk⟩

end Draft

variable [Scalar α]

/-! ## Scenes -/

namespace Scene

theorem rooted_inGroup {n count : Nat} {summary title : String} {actions : List (Action α)}
    (h : (inGroup n count summary title actions).Grounded [] n)
    (hhangs : ∀ a ∈ actions, a.HangsUnder (ref n 1)) (hmoves : actions.any moves = true) :
    ∃ count', (inGroup n count summary title actions).Rooted n count' :=
  Draft.rooted_of_grounded h rfl rfl hhangs (exists_keyframe_of_any_moves hmoves)

omit [Scalar α] in
theorem hangsUnder_of_mem_flatMap {root : String} {f : Nat → List (Action α)}
    (h : ∀ i, ∀ a ∈ f i, a.HangsUnder root) (count : Nat) :
    ∀ a ∈ (List.range count).flatMap f, a.HangsUnder root := by
  intro a ha
  obtain ⟨i, -, hi⟩ := List.mem_flatMap.1 ha
  exact h i a hi

theorem rooted_of_builder? {a : Archetype} {make : Plan α → Nat → Draft α}
    (h : builder? a = some make) (p : Plan α) (n : Nat) : ∃ count, (make p n).Rooted n count := by
  have hgrounded := grounded_of_builder? h p n
  cases a <;> simp only [builder?, Option.some.injEq, reduceCtorEq] at h <;> subst h
  case sunset | ocean | desert | meadow | genericScene =>
    exact rooted_inGroup hgrounded (by simp) rfl
  -- The others emit one block for each pass of a loop.
  case city =>
    refine rooted_inGroup hgrounded (List.forall_mem_cons.2 ⟨hangsUnder_under _ _, ?_⟩) rfl
    exact hangsUnder_of_mem_flatMap (fun i => by simp [house]) 5
  case forest =>
    refine rooted_inGroup hgrounded (List.forall_mem_append.2 ⟨by simp, ?_⟩) rfl
    exact hangsUnder_of_mem_flatMap (fun i => by simp [tree]) 5
  case mountain =>
    refine rooted_inGroup hgrounded (List.forall_mem_append.2 ⟨by simp, ?_⟩) rfl
    exact hangsUnder_of_mem_flatMap (fun i => by simp [driftingCloud]) 3
  case neonStudio =>
    refine rooted_inGroup hgrounded (List.forall_mem_append.2 ⟨by simp, ?_⟩) rfl
    exact hangsUnder_of_mem_flatMap (fun i => by simp [strip]) 4
  case space =>
    refine rooted_inGroup hgrounded (List.forall_mem_append.2 ⟨?_, by simp⟩) rfl
    refine List.forall_mem_append.2 ⟨by simp, ?_⟩
    exact hangsUnder_of_mem_flatMap (fun i => by simp [star]) 12

end Scene

/-! ## Figures -/

namespace Motion

variable {rig : Rig α} {b : Beats α} {a : Action α}

theorem moves_of_mem (m : Motion) : ∀ a ∈ m.keyframes rig b, a.moves = true := by
  have hidle : ∀ a ∈ idling rig b, a.moves = true := by
    unfold idling
    split <;> simp
  have hwave : ∀ a ∈ waving rig b, a.moves = true := by
    unfold waving
    split <;> simp
  cases m with
  | idle => exact hidle
  | wave => exact hwave
  | waveAndIdle => exact List.forall_mem_append.2 ⟨hwave, hidle⟩
  | walk =>
      simp only [keyframes, walking]
      split
      · split <;> simp [swing]
      · simp
  | bounce => simp [keyframes, bouncing]
  | spin => simp [keyframes, spinning]
  | pulse => simp [keyframes, pulsing]

/-- A figure that cannot follow its preset idles; so every figure with a group moves. -/
theorem any_moves_ofRig (preset : MotionPreset) (hgroup : rig.group ≠ "") :
    (ofRig preset rig b).any moves = true := by
  have hidle : (idling rig b).any moves = true := by
    rw [idling, if_neg hgroup]
    rfl
  unfold ofRig
  split
  · exact hidle
  · rename_i hsome
    obtain ⟨a, ha⟩ := List.exists_mem_of_ne_nil _ hsome
    exact List.any_eq_true.2 ⟨a, ha, moves_of_mem _ a ha⟩

end Motion

theorem Rig.rooted_animated (p : Plan α) (n : Nat) :
    ∃ count, (animated p n).Rooted n count := by
  have hmotion : (Motion.ofRig p.motion (ofPlan p n) p.beats).any moves = true :=
    Motion.any_moves_ofRig _ (Placeholder.id_ne_empty _)
  have hactions : (animated p n).actions =
      Action.group (ref n 1) (ofPlan p n).x (ofPlan p n).y ::
        ((shapes p n).map (under (ref n 1)) ++ Motion.ofRig p.motion (ofPlan p n) p.beats) :=
    rfl
  refine Draft.rooted_of_grounded (grounded_animated p n) rfl hactions ?_
    (exists_keyframe_of_any_moves ?_)
  · refine List.forall_mem_append.2 ⟨fun a ha => ?_, fun a ha => ?_⟩
    · obtain ⟨b, -, rfl⟩ := List.mem_map.1 ha
      exact hangsUnder_under _ b
    · exact hangsUnder_of_added?_eq_none (Motion.mentions_ofRig ha).1
  · rw [List.any_append, hmotion, Bool.or_true]

/-! ## Generators -/

namespace Generator

/-- The generators that lay everything out under a root: scenes, as far as there is a builder, and
figures that move. -/
def Roots (p : Plan α) : Generator → Prop
  | scene => (Scene.builder? (α := α) p.archetype).isSome
  | sceneOf a => (Scene.builder? (α := α) a).isSome
  | figure => True
  | _ => False

theorem exists_rooted_draft? {g : Generator} {p : Plan α} (h : g.Roots p) (n : Nat) :
    ∃ d count, g.draft? p n = .ok (some d) ∧ d.Rooted n count := by
  have hscene : ∀ a, (Scene.builder? (α := α) a).isSome → ∃ d count,
      (Scene.builder? a).map (fun make => make p n) = some d ∧ d.Rooted n count := by
    intro a ha
    obtain ⟨make, hmake⟩ := Option.isSome_iff_exists.1 ha
    obtain ⟨count, hrooted⟩ := Scene.rooted_of_builder? hmake p n
    exact ⟨make p n, count, by rw [hmake, Option.map_some], hrooted⟩
  cases g with
  | scene =>
      obtain ⟨d, count, hd, hrooted⟩ := hscene p.archetype h
      exact ⟨d, count, congrArg Except.ok hd, hrooted⟩
  | sceneOf a =>
      obtain ⟨d, count, hd, hrooted⟩ := hscene a h
      exact ⟨d, count, congrArg Except.ok hd, hrooted⟩
  | figure =>
      obtain ⟨count, hrooted⟩ := Rig.rooted_animated p n
      exact ⟨_, count, rfl, hrooted⟩
  | _ => exact h.elim

/-- A scene or a figure is a tree of depth one that moves, numbered from the one after `n` on,
unless one of its numbers cannot be written. -/
theorem rooted_of_roots {g : Generator} {p : Plan α} (h : g.Roots p) (n : Nat) :
    ∃ d count, d.Rooted n count ∧
      g.run p n = if n + count < ceiling then .ok (some d)
        else .error (.tooManyDigits none) := by
  obtain ⟨d, count, hd, hrooted⟩ := exists_rooted_draft? h n
  refine ⟨d, count, hrooted, ?_⟩
  rw [run_of_draft? hd hrooted.issued]
  simp only [hrooted.count_pos, true_imp_iff]

/-- A sunset. -/
def dusk : Request Float where
  prompt := "sunset"

theorem plan_dusk : ∃ p, Plan.ofRequest (Settings.read fun _ => none) dusk = .ok p ∧
    scene.Roots p := by
  have hcount : Measure.count (Features.normalize dusk.prompt).toList = .ok 1 := by rfl
  obtain ⟨f, hf, hsunset⟩ : ∃ f : Features Float, Features.ofText dusk.prompt = .ok f ∧
      Intent.archetypes.first? f = some .sunset := by
    unfold Features.ofText
    dsimp only
    rw [hcount]
    exact ⟨_, rfl, by decide +kernel⟩
  unfold Plan.ofRequest
  rw [hf]
  refine ⟨_, rfl, ?_⟩
  simp [Roots, hsunset, Scene.builder?]

/-- The sunset with the ids from eight on. -/
theorem rooted_of_roots_dusk : ∃ p, Plan.ofRequest (Settings.read fun _ => none) dusk = .ok p ∧
    scene.Roots p ∧ ∃ d count, d.Rooted 7 count ∧
      scene.run p 7 = if 7 + count < ceiling then .ok (some d)
        else .error (.tooManyDigits none) := by
  obtain ⟨p, hp, hroots⟩ := plan_dusk
  exact ⟨p, hp, hroots, rooted_of_roots hroots 7⟩

/-- After the highest number that can be written there is no sunset. -/
theorem unrooted_dusk : ∃ p, Plan.ofRequest (Settings.read fun _ => none) dusk = .ok p ∧
    scene.Roots p ∧ scene.run p (ceiling - 1) = .error (.tooManyDigits none) ∧
      ¬ ∃ d count, scene.run p (ceiling - 1) = .ok (some d) ∧ d.Rooted (ceiling - 1) count := by
  obtain ⟨p, hp, hroots⟩ := plan_dusk
  obtain ⟨d, count, hd, hrooted⟩ := exists_rooted_draft? hroots (ceiling - 1)
  have hpos := hrooted.count_pos
  have hfails : scene.run p (ceiling - 1) = .error (.tooManyDigits none) := by
    rw [run_of_draft? hd hrooted.issued, if_neg (by omega)]
  refine ⟨p, hp, hroots, hfails, ?_⟩
  rintro ⟨e, count, hruns, -⟩
  rw [hfails] at hruns
  cases hruns

end Generator

end Storyboard
