import Storyboard.Proofs.Compiler.Ungated
/-!
# Steps and actions

The steps of a plan hold what was composed, and the answer holds what the gate leaves of it.  The
two agree but for the order as long as the gate drops nothing of camera and weather, which it does
exactly when these last for ever.
-/

namespace Storyboard

open Gate (Steady)

/-! ## Compositions -/

namespace Composition

variable {α : Type}

theorem anchorId?_isSome_iff {n : Nat} {fs : List (Fragment α)} :
    (anchorId? n fs).isSome = true ↔ ∃ f ∈ fs, f.root?.isSome = true := by
  induction fs generalizing n with
  | nil => simp [anchorId?]
  | cons f fs ih => simp [anchorId?, ih]

/-- A wrapper keeps the camera apart from the tracks of a root. -/
theorem of_needsWrapper {p : Plan α} {fs : List (Fragment α)} (h : needsWrapper p fs = .ok true) :
    p.camera = true ∧ ∃ f ∈ fs, f.root?.isSome = true := by
  unfold needsWrapper at h
  split at h
  · simp at h
  · rename_i f hfind
    split at h
    · rename_i hcamera
      exact ⟨hcamera, f, List.mem_of_find?_eq_some hfind,
        List.find?_some (p := fun f : Fragment α => f.root?.isSome) hfind⟩
    · simp at h

variable [Scalar α] {p : Plan α}

/-- The steps hold the same actions, with the wrapper beside the camera. -/
theorem perm_finish {wrapper : Option String} {s : Progress α}
    (hwrapper : wrapper = none ∨ p.camera = true) :
    ((finish p wrapper s).steps.flatMap (·.actions)).Perm (finish p wrapper s).actions := by
  obtain ⟨origin, camera, weather, -, hcamera, -, hactions, hsteps⟩ := finish_eq p wrapper s
  have hcameraSteps : (cameraSteps (wrapperActions wrapper) camera).flatMap (·.actions) =
      wrapperActions wrapper ++ camera := by
    cases camera with
    | cons a as => simp [cameraSteps]
    | nil =>
        -- A camera that moves the wrapper is not empty.
        rcases hwrapper with rfl | hmoves
        · rfl
        · cases wrapper with
          | none => rfl
          | some id => simp [cameraActions, hmoves, Camera.motion] at hcamera
  have hweatherSteps : (weatherSteps p weather).flatMap (·.actions) = weather := by
    cases weather <;> simp [weatherSteps]
  rw [hactions, hsteps, List.flatMap_append, List.flatMap_append, hcameraSteps, hweatherSteps]
  simp only [List.append_assoc]
  exact List.perm_append_comm_assoc _ _ _

theorem perm_of_compose {fs : List (Fragment α)} {n : Nat} {c : Composition α}
    (h : compose p fs n = .ok c) : (c.steps.flatMap (·.actions)).Perm c.actions := by
  obtain ⟨wrapped, s, hwrapped, -, -, -, rfl⟩ := compose_eq_ok_iff.1 h
  refine perm_finish ?_
  cases wrapped with
  | false => exact .inl rfl
  | true => exact .inr (of_needsWrapper hwrapped).1

end Composition

namespace Gate

/-- A keyframe that is never reached is dropped. -/
theorem pass_of_endless {element property easing : String} {t v : Float}
    (h : Scalar.isFinite t = false) :
    pass (Action.key element property t v easing).toValue = .ok none := by
  obtain ⟨k, hk, htime⟩ : ∃ k : Keyframe Float,
      Action.key element property t v easing = .keyframe k ∧ k.time = t := ⟨_, rfl, rfl⟩
  have hname : ActionName.ofValue? (Action.keyframe k).toValue = some .addKeyframe :=
    ofValue?_wire _ _
  have hpayload : passKeyframe (Action.keyframePayload k) = .ok none := by
    unfold passKeyframe
    cases isNamed (Fields.get? (Action.keyframePayload k) "elementId") with
    | false => rfl
    | true =>
        simp [Action.keyframePayload, isOneOf, Value.finite?, htime, h]
  rw [hk]
  unfold pass
  simp only [Action.toValue, Action.wire] at hname ⊢
  simp only [hname, Fields.get?_cons, String.reduceEq, if_false, if_true, passPayload, hpayload]
  rfl

theorem length_passFrom_le {index : Nat} {as : List (Value Float)} {r : Passage Float}
    (h : passFrom index as = .ok r) : r.actions.length ≤ as.length := by
  induction as generalizing index r with
  | nil =>
      simp only [passFrom, Except.ok.injEq] at h
      simp [← h]
  | cons b as ih =>
      obtain ⟨passed?, later, -, hlater, hactions⟩ := passFrom_cons_eq_ok h
      have hle := ih hlater
      have hone : passed?.toList.length ≤ 1 := by cases passed? <;> simp
      rw [hactions, List.length_append, List.length_cons]
      omega

/-- What is dropped is missing. -/
theorem length_passFrom_lt {index : Nat} {as : List (Value Float)} {r : Passage Float}
    (h : passFrom index as = .ok r) {a : Value Float} (ha : a ∈ as) (hdropped : pass a = .ok none) :
    r.actions.length < as.length := by
  induction as generalizing index r with
  | nil => cases ha
  | cons b as ih =>
      obtain ⟨passed?, later, hpass, hlater, hactions⟩ := passFrom_cons_eq_ok h
      rw [hactions, List.length_append, List.length_cons]
      rcases List.mem_cons.1 ha with rfl | ha
      · obtain rfl : none = passed? := Except.ok.inj (hdropped.symm.trans hpass)
        have hle := length_passFrom_le hlater
        simp only [Option.toList_none, List.length_nil]
        omega
      · have hlt := ih hlater ha
        have hone : passed?.toList.length ≤ 1 := by cases passed? <;> simp
        omega

end Gate

/-! ## Roots -/

namespace Compiler

variable {α : Type} [Scalar α] {p : Plan α}

/-- The gate leaves roots alone. -/
theorem rooted_of_gatedAll {ds : List (Draft α)} {fs : List (Fragment α)} {whole : Bool}
    (h : gatedAll ds = .ok (fs, whole)) :
    (∃ f ∈ fs, f.root?.isSome = true) ↔
      ∃ d ∈ ds, (d.root.filter (· ≠ "")).isSome = true := by
  obtain ⟨hdown, hup⟩ := gated_of_gatedAll h
  constructor
  · rintro ⟨f, hf, hroot⟩
    obtain ⟨d, hd, _, hgated⟩ := hup f hf
    obtain ⟨r, -, rfl⟩ := gated_eq_ok hgated
    exact ⟨d, hd, hroot⟩
  · rintro ⟨d, hd, hroot⟩
    obtain ⟨f, hf, _, hgated⟩ := hdown d hd
    obtain ⟨r, -, rfl⟩ := gated_eq_ok hgated
    exact ⟨_, hf, hroot⟩

/-- Scenes and figures have a root, shapes and edits have none. -/
theorem rooted_iff {settings : Settings α} {r : Request α} (hp : Plan.ofRequest settings r = .ok p)
    {ds : List (Draft α)} (hds : drafts p = .ok ds) :
    (∃ d ∈ ds, (d.root.filter (· ≠ "")).isSome = true) ↔
      p.wantsScene = true ∨ p.wantsCharacter = true := by
  have hscene : ∀ {a : Archetype} {make : Plan α → Nat → Draft α}, Scene.builder? a = some make →
      (make p 0).root = some (Scene.ref 0 1) := by
    intro a make hmake
    cases a <;> simp only [Scene.builder?, Option.some.injEq, reduceCtorEq] at hmake <;>
      subst hmake <;> rfl
  have hfigure : (Rig.animated p 0).root = some (Rig.ref 0 1) := rfl
  have hshape : (Shape.build p 0).root = none := rfl
  constructor
  · rintro ⟨d, hd, hroot⟩
    rcases drafts_cases hds with ⟨e, he, rfl⟩ | rfl
    · rw [List.mem_singleton.1 hd, Edit.root_of_build he] at hroot
      simp at hroot
    · rcases mem_wanted_iff.1 hd with hd | hd | hd
      · exact .inl hd.1
      · exact .inr hd.1
      · rw [hd.2, hshape] at hroot
        simp at hroot
  · intro hwants
    obtain rfl := eq_wanted_of_drafts (wanted_ne_nil hp (hwants.imp_right .inl)) hds
    rcases hwants with hwants | hwants
    · obtain ⟨make, hmake⟩ := exists_builder hp hwants
      refine ⟨make p 0, mem_wanted_iff.2 (.inl ⟨hwants, by simp [Scene.build?, hmake]⟩), ?_⟩
      simp [hscene hmake, Scene.ref, Placeholder.id_ne_empty]
    · refine ⟨Rig.animated p 0, mem_wanted_iff.2 (.inr (.inl ⟨hwants, rfl⟩)), ?_⟩
      simp [hfigure, Rig.ref, Placeholder.id_ne_empty]

end Compiler

/-! ## Plans that never end -/

/-- The first particle of the weather is moved until the end of the plan. -/
theorem Weather.exists_last {α : Type} [Scalar α] {p : Plan α} (h : p.weather ≠ .none) (n : Nat)
    (parent : Option String) (origin : α × α) :
    ∃ (k : Nat) (y : α) (easing : String),
      Action.key (Placeholder.id k) "y" p.duration y easing ∈ overlay p n parent origin := by
  have hfirst : ∀ w : Weather, w ≠ .none → 0 ∈ List.range w.particles := by
    intro w hw
    cases w
    case none => exact absurd rfl hw
    all_goals exact List.mem_range.2 (by decide)
  unfold overlay
  cases hfalls : p.weather with
  | none => exact absurd hfalls h
  | rain =>
      obtain ⟨y, easing, hmem⟩ : ∃ y easing,
          Action.key (Placeholder.id (n + 2 + 0)) "y" p.duration y easing ∈
            drop p (Placeholder.id (n + 1)) (Placeholder.id (n + 2 + 0)) 0 :=
        ⟨_, _, List.mem_cons_of_mem _ (List.mem_cons_of_mem _ List.mem_cons_self)⟩
      exact ⟨_, y, easing, List.mem_cons_of_mem _
        (List.mem_flatMap.2 ⟨0, hfirst .rain (by decide), hmem⟩)⟩
  | snow =>
      obtain ⟨y, easing, hmem⟩ : ∃ y easing,
          Action.key (Placeholder.id (n + 2 + 0)) "y" p.duration y easing ∈
            flake p (Placeholder.id (n + 1)) (Placeholder.id (n + 2 + 0)) 0 :=
        ⟨_, _, List.mem_cons_of_mem _ (List.mem_cons_of_mem _ List.mem_cons_self)⟩
      exact ⟨_, y, easing, List.mem_cons_of_mem _
        (List.mem_flatMap.2 ⟨0, hfirst .snow (by decide), hmem⟩)⟩

/-- The plan never ends, and camera or weather would have to. -/
structure Plan.Unending (p : Plan Float) : Prop where
  endless : Scalar.isFinite p.duration = false
  scene : p.wantsPhoto = false
  laid : p.weather ≠ .none ∨ p.camera = true ∧ (p.wantsScene = true ∨ p.wantsCharacter = true)

namespace Composition.Layout

variable {p : Plan Float} {fs : List (Fragment Float)} {n : Nat} {c : Composition Float}

/-- Camera and weather hold on to something as soon as some fragment has a root. -/
theorem driven_isSome_iff (l : Layout p fs n c) :
    l.driven.isSome = true ↔ ∃ f ∈ fs, f.root?.isSome = true := by
  have hneeds := l.needsWrapper_eq
  unfold driven wrapperId?
  cases hwrapped : l.wrapped with
  | false => simp [anchorId?_isSome_iff]
  | true =>
      rw [hwrapped] at hneeds
      exact iff_of_true rfl (of_needsWrapper hneeds).2

/-- The last keyframe of what falls is at the end of the plan, and so is the last of the camera. -/
theorem dropped_of_endless (l : Layout p fs n c) (hendless : Scalar.isFinite p.duration = false)
    (hlast : p.beats.settle.finish = p.duration)
    (hlaid : p.weather ≠ .none ∨ p.camera = true ∧ l.driven.isSome = true) :
    ∃ a ∈ c.actions, Gate.pass a = .ok none := by
  rw [l.actions_eq]
  rcases hlaid with hweather | ⟨hcamera, hdriven⟩
  · obtain ⟨k, y, easing, hmem⟩ := Weather.exists_last hweather l.last l.driven l.origin
    exact ⟨_, List.mem_append_right _ (List.mem_map_of_mem hmem), Gate.pass_of_endless hendless⟩
  · obtain ⟨id, hid⟩ := Option.isSome_iff_exists.1 hdriven
    have hmem : Action.key id "x" p.beats.settle.finish (l.origin.1 + Camera.panX p)
        "ease-in-out" ∈ cameraActions p l.driven l.origin := by
      simp [hid, cameraActions, hcamera, Camera.motion]
    exact ⟨_, List.mem_append_left _ (List.mem_append_right _ (List.mem_map_of_mem hmem)),
      Gate.pass_of_endless (hlast ▸ hendless)⟩

end Composition.Layout

/-! ## Plans -/

namespace Plan

variable {settings : Settings Float} {r : Request Float} {p : Plan Float}

theorem beats_eq (h : ofRequest settings r = .ok p) : p.beats = .ofDuration p.duration := by
  obtain ⟨f, -, rfl⟩ := map_eq_ok_iff.1 h
  rfl

/-- A duration that ends can be set. -/
theorem settable_duration (h : ofRequest settings r = .ok p)
    (hends : Scalar.isFinite p.duration = true) : Settable p.duration := by
  refine ⟨hends, ?_⟩
  obtain ⟨f, -, rfl⟩ := map_eq_ok_iff.1 h
  dsimp only
  rcases Binary.max_eq_or_lt minDuration (r.duration.getD settings.duration) with heq | hlt
  · rw [heq]
    decide
  · exact Binary.not_lt_of_lt (Binary.lt_trans (x := 0.0) (by decide) hlt)

end Plan

/-! ## Answers -/

namespace Compiler

variable {p : Plan Float}

/-- The drafts of a plan that passed the gate refer to elements of one kind. -/
theorem settled_of_drafts {ds : List (Draft Float)} {fs : List (Fragment Float)} {whole : Bool}
    (hds : drafts p = .ok ds) (hfs : gatedAll ds = .ok (fs, whole)) :
    ∃ known, ∀ f ∈ fs, Settled known f := by
  rcases drafts_cases hds with ⟨d, hd, rfl⟩ | rfl
  · exact ⟨_, settled_of_gatedAll (List.forall_mem_singleton.2 (Edit.grounded_of_build hd)) hfs⟩
  · exact ⟨[], settled_of_gatedAll (fun d hd => grounded_of_wanted hd) hfs⟩

/-- The scene that stands in always gets through the gate. -/
theorem passes_generic {r : Passage Float}
    (hr : Gate.passAll (Scene.generic p 0).fragment.actions = .ok r) : r.actions ≠ [] := by
  intro hnone
  have hadds : addedIds r.actions = addedIds (Scene.generic p 0).fragment.actions :=
    Gate.addedIds_of_passFrom hr (spares_of_grounded (Scene.grounded_generic p 0))
  obtain ⟨count, hissued, hall⟩ := (Scene.grounded_generic p 0).adds
  rw [hnone, addedIds_fragment hall] at hadds
  have hcount : 0 + 4 = 0 + count := hissued
  have hzero : count = 0 := by simpa [addedIds] using hadds
  omega

theorem eq_of_safeScene {steps : List (PlanStep Float)} {o : Outcome Float}
    (h : safeScene p steps = .ok o) :
    o.summary = Outcome.safeSummary ∧ o.actions ≠ [] := by
  obtain ⟨r, hr, ho⟩ := map_eq_ok_iff.1 h
  have hpasses := passes_generic hr
  rw [if_neg (by simpa using hpasses)] at ho
  rw [← ho]
  exact ⟨rfl, hpasses⟩

theorem summary_of_safeScene {steps : List (PlanStep Float)} {o : Outcome Float}
    (h : safeScene p steps = .ok o) : o.summary = Outcome.safeSummary :=
  (eq_of_safeScene h).1

variable {settings : Settings Float} {r : Request Float}

theorem driven_isSome_iff_wants (hp : Plan.ofRequest settings r = .ok p) {ds : List (Draft Float)}
    (hds : drafts p = .ok ds) {fs : List (Fragment Float)} {whole : Bool}
    (hfs : gatedAll ds = .ok (fs, whole)) {c : Composition Float}
    (l : Composition.Layout p fs 0 c) :
    l.driven.isSome = true ↔ p.wantsScene = true ∨ p.wantsCharacter = true := by
  rw [l.driven_isSome_iff, rooted_of_gatedAll hfs, rooted_iff hp hds]

/-- As long as camera and weather end, the gate drops nothing of what is composed. -/
theorem steady_of_compose (hp : Plan.ofRequest settings r = .ok p) {ds : List (Draft Float)}
    (hds : drafts p = .ok ds) {fs : List (Fragment Float)} {whole : Bool}
    (hfs : gatedAll ds = .ok (fs, whole)) {c : Composition Float}
    (hc : Composition.compose p fs 0 = .ok c)
    (hends : p.weather ≠ .none ∨
      p.camera = true ∧ (p.wantsScene = true ∨ p.wantsCharacter = true) → Settable p.duration) :
    ∀ a ∈ c.actions, Steady a := by
  obtain ⟨l⟩ := Composition.compose_layout hc
  obtain ⟨known, hsettled⟩ := settled_of_drafts hds hfs
  refine l.steady (fun f hf => (hsettled f hf).steady) (fun f hf => (hsettled f hf).rooted)
    (fun f hf => ?_) (fun hcamera hsome => ?_) (fun hweather => hends (.inl hweather))
  · obtain ⟨count, hids⟩ := (hsettled f hf).ids
    rw [hids]
    exact Composition.numbered_map_id _
  · rw [Plan.beats_eq hp]
    exact ⟨settable_zero, hends (.inr ⟨hcamera, (driven_isSome_iff_wants hp hds hfs l).1 hsome⟩)⟩

theorem steps_of_compileScene (hp : Plan.ofRequest settings r = .ok p)
    (hphoto : p.wantsPhoto = false) {o : Outcome Float} (ho : compileScene p = .ok o)
    (hown : o.summary ≠ Outcome.safeSummary) :
    (o.steps.flatMap (·.actions)).Perm o.actions ↔ ¬ p.Unending := by
  obtain ⟨ds, fs, whole, c, passed, hds, hfs, hc, hpassed, ⟨-, hsafe⟩ | ⟨-, rfl⟩⟩ :=
    compileScene_eq_ok_iff.1 ho
  · exact absurd (summary_of_safeScene hsafe) hown
  · have hperm := Composition.perm_of_compose hc
    constructor
    · intro hsame hunending
      obtain ⟨l⟩ := Composition.compose_layout hc
      obtain ⟨a, ha, hdropped⟩ := l.dropped_of_endless hunending.endless
        (by rw [Plan.beats_eq hp]; rfl)
        (hunending.laid.imp_right (And.imp_right (driven_isSome_iff_wants hp hds hfs l).2))
      have hfewer := Gate.length_passFrom_lt hpassed ha hdropped
      have hsize : c.actions.length = passed.actions.length := (hperm.symm.trans hsame).length_eq
      omega
    · intro hends
      have hsteady := steady_of_compose hp hds hfs hc fun hlaid => by
        refine Plan.settable_duration hp ?_
        by_contra hendless
        exact hends ⟨by simpa using hendless, hphoto, hlaid⟩
      have hunchanged : Gate.passAll c.actions = .ok ⟨c.actions, []⟩ := unchanged_of_steady hsteady
      rw [hpassed, Except.ok.injEq] at hunchanged
      rw [hunchanged]
      exact hperm

theorem steps_of_compilePhoto {o : Outcome Float}
    (ho : compilePhoto p = .ok o) (hown : o.summary ≠ Outcome.safeSummary) :
    o.steps.flatMap (·.actions) = o.actions := by
  obtain ⟨f, whole, -, ⟨-, hsafe⟩ | ⟨-, rfl⟩⟩ := compilePhoto_eq_ok_iff.1 ho
  · exact absurd (summary_of_safeScene hsafe) hown
  · simp

/-- An answer that is neither a failure nor the scene that stands in has the actions of its steps,
in some order, unless its plan has camera or weather and never ends. -/
theorem steps_perm_actions_iff (hdone : (answer settings r).summary ≠ Outcome.failureSummary)
    (hown : (answer settings r).summary ≠ Outcome.safeSummary) :
    ∃ p, Plan.ofRequest settings r = .ok p ∧
      (((answer settings r).steps.flatMap (·.actions)).Perm (answer settings r).actions ↔
        ¬ p.Unending) := by
  unfold answer at *
  split
  · rename_i o ho
    rw [ho] at hown
    obtain ⟨p, hp, hcompile⟩ := bind_eq_ok_iff.1 ho
    refine ⟨p, hp, ?_⟩
    unfold compile at hcompile
    split at hcompile
    · rename_i hphoto
      refine iff_of_true ?_ fun hunending => ?_
      · rw [steps_of_compilePhoto hcompile hown]
      · rw [hunending.scene] at hphoto
        cases hphoto
    · rename_i hphoto
      exact steps_of_compileScene hp (by simpa using hphoto) hcompile hown
  · rename_i e he
    rw [he] at hdone
    exact absurd rfl hdone

/-- The steps of falling snow hold the actions of the answer. -/
theorem steps_perm_actions_snowy :
    ((answer (Settings.read fun _ => none) snowy).steps.flatMap (·.actions)).Perm
      (answer (Settings.read fun _ => none) snowy).actions := by
  have hown : (answer (Settings.read fun _ => none) snowy).summary ≠ Outcome.failureSummary ∧
      (answer (Settings.read fun _ => none) snowy).summary ≠ Outcome.safeSummary := by
    decide +kernel
  obtain ⟨p, hp, hsame⟩ := steps_perm_actions_iff hown.1 hown.2
  refine hsame.2 fun hunending => ?_
  have hends : Scalar.isFinite (Scalar.max Plan.minDuration
      (snowy.duration.getD (Settings.read fun _ => none).duration) : Float) = true := by
    decide
  have hendless := hunending.endless
  obtain ⟨f, -, rfl⟩ := map_eq_ok_iff.1 hp
  rw [hends] at hendless
  cases hendless

/-- Rain that never ends. -/
def endlessRain : Value Float :=
  .object [("userRequest", .text "rain"), ("animationDuration", .text "inf")]

/-- The rain that never ends lacks the keyframes that it would end with, but its step holds them. -/
theorem steps_endlessRain : ∃ r, Request.ofValue endlessRain = .ok r ∧
    (answer (Settings.read fun _ => none) r).summary ≠ Outcome.failureSummary ∧
    (answer (Settings.read fun _ => none) r).summary ≠ Outcome.safeSummary ∧
    ¬ ((answer (Settings.read fun _ => none) r).steps.flatMap (·.actions)).Perm
      (answer (Settings.read fun _ => none) r).actions := by
  obtain ⟨r, hr, hown⟩ : ∃ r, Request.ofValue endlessRain = .ok r ∧
      (answer (Settings.read fun _ => none) r).summary ≠ Outcome.failureSummary ∧
      (answer (Settings.read fun _ => none) r).summary ≠ Outcome.safeSummary ∧
      ((answer (Settings.read fun _ => none) r).steps.flatMap (·.actions)).length ≠
        (answer (Settings.read fun _ => none) r).actions.length :=
    ⟨_, rfl, by decide +kernel⟩
  exact ⟨r, hr, hown.1, hown.2.1, fun h => hown.2.2 h.length_eq⟩

end Compiler

end Storyboard
