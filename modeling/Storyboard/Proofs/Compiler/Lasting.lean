import Storyboard.Proofs.Compiler.Steps
import Storyboard.Proofs.Draft.Lasting
/-!
# Answers that last

An answer with keyframes has one at two seconds or later, at three for a photo and at four for a
photo in layers.  The exception is a plan in which nothing moves but a meadow and a figure that
spins, where both are at rest before two seconds are over.
-/

namespace Storyboard

open Composition (cameraActions)
open Gate (Steady)

namespace Gate

theorem named_of_pass {k : Keyframe Float} {b : Value Float}
    (h : pass (Action.keyframe k).toValue = .ok (some b)) : Named k.element := by
  obtain ⟨name, payload, passed, ha, -, hpayload, -, hpass⟩ := payload_of_pass h
  obtain rfl : ActionName.addKeyframe = name := Option.some.inj ((ofValue?_wire _ _).symm.trans ha)
  obtain rfl : Value.object (Action.keyframePayload k) = payload :=
    Option.some.inj (hpayload.symm.trans rfl).symm
  exact (passKeyframe_eq_some_iff.1 hpass).1

end Gate

/-! ## Times through the gate -/

/-- If there are keyframes, one of them is at `least` or later. -/
def Lasts (least : Rat) (actions : List (Value Float)) : Prop :=
  (∃ a ∈ actions, ActionName.ofValue? a = some .addKeyframe) → ∃ t ∈ times actions, least ≤ t

section Passage

variable {least : Rat} {d : Draft Float} {as : List (Value Float)} {r : Passage Float}

theorem exists_keyframe_of_times (h : times as ≠ []) :
    ∃ a ∈ as, ActionName.ofValue? a = some .addKeyframe := by
  obtain ⟨t, ht⟩ := List.exists_mem_of_ne_nil _ h
  obtain ⟨s, hs, -⟩ := List.mem_map.1 ht
  obtain ⟨a, ha, hstamp⟩ := List.mem_filterMap.1 hs
  exact ⟨a, ha, (stamp?_eq_some_iff.1 hstamp).1⟩

/-- What passed has a time for each of its keyframes. -/
theorem lasts_iff_of_passAll (h : Gate.passAll as = .ok r) :
    Lasts least r.actions ↔ (times r.actions ≠ [] → ∃ t ∈ times r.actions, least ≤ t) := by
  refine imp_congr_left ⟨?_, exists_keyframe_of_times⟩
  rintro ⟨b, hb, hname⟩
  obtain ⟨a, -, hpass⟩ := Gate.exists_pass_of_mem h b hb
  obtain ⟨s, hs, -⟩ := Gate.exists_stamp_of_pass hpass hname
  exact List.ne_nil_of_mem (List.mem_map_of_mem (List.mem_filterMap.2 ⟨b, hb, hs⟩))

theorem exists_time_of_late (h : Gate.passAll d.fragment.actions = .ok r)
    (hlate : Late least d.actions) : ∃ t ∈ times r.actions, least ≤ t := by
  obtain ⟨a, ha, hfits, s, hs, hle⟩ := hlate
  have hmem := Gate.mem_of_passFrom h (List.mem_map_of_mem ha) (Action.steady_of_fits hfits)
  have hstamp : s ∈ stamps r.actions := List.mem_filterMap.2 ⟨_, hmem, by rw [stamp?_toValue, hs]⟩
  exact ⟨s.time, List.mem_map_of_mem hstamp, hle⟩

/-- A keyframe that got through is one of the draft. -/
theorem exists_action_of_stamp (h : Gate.passAll d.fragment.actions = .ok r) {s : Stamp}
    (hs : s ∈ stamps r.actions) :
    ∃ a ∈ d.actions, a.stamp? = some s ∧ ∃ b, Gate.pass a.toValue = .ok (some b) := by
  obtain ⟨b, hb, hstamp⟩ := List.mem_filterMap.1 hs
  obtain ⟨v, hv, hpass⟩ := Gate.exists_pass_of_mem h b hb
  obtain ⟨a, ha, rfl⟩ := List.mem_map.1 hv
  rw [Gate.stamp?_of_pass hpass, stamp?_toValue] at hstamp
  exact ⟨a, ha, hstamp, b, hpass⟩

theorem exists_time_of_lasting (h : Gate.passAll d.fragment.actions = .ok r)
    (hlasting : Lasting least d.actions) (hsome : times r.actions ≠ []) :
    ∃ t ∈ times r.actions, least ≤ t := by
  obtain ⟨t, ht⟩ := List.exists_mem_of_ne_nil _ hsome
  obtain ⟨s, hs, -⟩ := List.mem_map.1 ht
  obtain ⟨a, ha, hstamp, b, hpass⟩ := exists_action_of_stamp h hs
  cases a with
  | keyframe k => exact exists_time_of_late h (hlasting k ha (Gate.named_of_pass hpass))
  | _ => cases hstamp

theorem time_lt_of_allBrief (h : Gate.passAll d.fragment.actions = .ok r)
    (hbrief : AllBrief d.actions) : ∀ t ∈ times r.actions, t < 2 := by
  intro t ht
  obtain ⟨s, hs, rfl⟩ := List.mem_map.1 ht
  obtain ⟨a, ha, hstamp, -⟩ := exists_action_of_stamp h hs
  exact hbrief a ha s hstamp

end Passage

/-! ## Plans -/

namespace Plan

/-- The time that the keyframes of an answer have to reach. -/
def floor (p : Plan Float) : Rat :=
  if p.wantsPhoto then if p.wantsLayers then 4 else 3 else 2

/-- Nothing moves but a meadow and a figure that spins, and they are at rest before two seconds are
over. -/
structure Hasty (p : Plan Float) : Prop where
  photo : p.wantsPhoto = false
  weather : p.weather = .none
  camera : p.camera = false
  shape : p.wantsPath = true → p.features.any [.animate, .draw, .path] = false
  scene : p.wantsScene = true → p.archetype = .meadow ∧ p.duration * 0.4 < 2.0
  figure : p.wantsCharacter = true →
    p.motion = .spin ∧ p.beats.intro.finish < 2.0 ∧ p.beats.settle.start < 2.0
  moved : p.wantsScene = true ∨ p.wantsCharacter = true

theorem reaches_duration {settings : Settings Float} {r : Request Float} {p : Plan Float}
    (h : ofRequest settings r = .ok p) (hends : Scalar.isFinite p.duration = true) :
    Reaches 2 p.duration := by
  refine reaches_of_not_lt toRat?_two (by norm_num) hends ?_
  obtain ⟨f, -, rfl⟩ := map_eq_ok_iff.1 h
  dsimp only
  rcases Binary.max_eq_or_lt minDuration (r.duration.getD settings.duration) with heq | hlt
  · rw [heq]
    decide
  · exact Binary.not_lt_of_lt hlt

end Plan

/-! ## Compositions -/

/-- Composing puts the times of camera and weather after those of the fragments. -/
theorem Composition.Layout.times_eq {p : Plan Float} {fs : List (Fragment Float)} {n : Nat}
    {c : Composition Float} (l : Composition.Layout p fs n c) :
    times c.actions = (fs.flatMap fun f => times f.actions) ++
      times ((cameraActions p l.driven l.origin).map Action.toValue) ++
      times ((Weather.overlay p l.last l.driven l.origin).map Action.toValue) := by
  have hwrapper : times (Composition.wrapperActions (α := Float)
      (Composition.wrapperId? l.wrapped n)) = [] := by
    rw [times, stamps_wrapperActions]
    rfl
  rw [l.actions_eq, times_append, times_append, times_append, hwrapper, times_emittedAll]
  rfl

theorem exists_time_of_key {least : Rat} {as : List (Action Float)}
    {id property easing : String} {t v : Float} (hmem : Action.key id property t v easing ∈ as)
    (ht : Reaches least t) : ∃ q ∈ times (as.map Action.toValue), least ≤ q := by
  obtain ⟨q, hq, hle⟩ := ht.late
  have hstamp : (Action.key id property t v easing).stamp? = some ⟨id, property, q⟩ := by
    show (Scalar.toRat? t).map _ = _
    rw [hq]
    rfl
  have hs : (⟨id, property, q⟩ : Stamp) ∈ stamps (as.map Action.toValue) :=
    List.mem_filterMap.2 ⟨_, List.mem_map_of_mem hmem, by rw [stamp?_toValue, hstamp]⟩
  exact ⟨q, List.mem_map_of_mem hs, hle⟩

namespace Compiler

variable {settings : Settings Float} {r : Request Float} {p : Plan Float}

section Composed

variable {ds : List (Draft Float)} {fs : List (Fragment Float)} {whole : Bool}
  {c : Composition Float}

/-- A late keyframe of a draft is one of the composition. -/
theorem exists_time_of_draft {least : Rat} (hfs : gatedAll ds = .ok (fs, whole))
    (l : Composition.Layout p fs 0 c) {d : Draft Float} (hd : d ∈ ds)
    (hlate : Late least d.actions) : ∃ t ∈ times c.actions, least ≤ t := by
  obtain ⟨f, hf, _, hgated⟩ := (gated_of_gatedAll hfs).1 d hd
  obtain ⟨r, hr, rfl⟩ := gated_eq_ok hgated
  obtain ⟨t, ht, hle⟩ := exists_time_of_late hr hlate
  refine ⟨t, ?_, hle⟩
  rw [l.times_eq]
  exact List.mem_append_left _ (List.mem_append_left _ (List.mem_flatMap.2 ⟨_, hf, ht⟩))

theorem exists_time_of_weather (hduration : Reaches 2 p.duration) (hweather : p.weather ≠ .none)
    (l : Composition.Layout p fs 0 c) : ∃ t ∈ times c.actions, 2 ≤ t := by
  obtain ⟨k, y, easing, hmem⟩ := Weather.exists_last hweather l.last l.driven l.origin
  obtain ⟨t, ht, hle⟩ := exists_time_of_key hmem hduration
  refine ⟨t, ?_, hle⟩
  rw [l.times_eq]
  exact List.mem_append_right _ ht

theorem exists_time_of_camera (hfinish : Reaches 2 p.beats.settle.finish)
    (hcamera : p.camera = true) (l : Composition.Layout p fs 0 c)
    (hdriven : l.driven.isSome = true) : ∃ t ∈ times c.actions, 2 ≤ t := by
  obtain ⟨id, hid⟩ := Option.isSome_iff_exists.1 hdriven
  have hmem : Action.key id "x" p.beats.settle.finish (l.origin.1 + Camera.panX p) "ease-in-out" ∈
      cameraActions p l.driven l.origin := by
    simp [hid, cameraActions, hcamera, Camera.motion]
  obtain ⟨t, ht, hle⟩ := exists_time_of_key hmem hfinish
  refine ⟨t, ?_, hle⟩
  rw [l.times_eq]
  exact List.mem_append_left _ (List.mem_append_right _ ht)

/-- Without camera and weather, the times are those of the fragments. -/
theorem times_of_fragments (l : Composition.Layout p fs 0 c) (hweather : p.weather = .none)
    (hcamera : cameraActions p l.driven l.origin = []) :
    times c.actions = fs.flatMap fun f => times f.actions := by
  have hoverlay : Weather.overlay p l.last l.driven l.origin = [] := by
    unfold Weather.overlay
    rw [hweather]
  rw [l.times_eq, hcamera, hoverlay]
  simp [times, stamps]

/-- Edits and shapes last: when all keyframes are brief, and there are some, they are those of a
scene or of a figure. -/
theorem wants_of_brief (hduration : Reaches 2 p.duration) (hds : drafts p = .ok ds)
    (hfs : gatedAll ds = .ok (fs, whole))
    (htimes : times c.actions = fs.flatMap fun f => times f.actions)
    (hsome : times c.actions ≠ []) (hbrief : ¬ ∃ t ∈ times c.actions, 2 ≤ t) :
    p.wantsScene = true ∨ p.wantsCharacter = true := by
  by_contra hstill
  have hlasting : ∀ d ∈ ds, Lasting 2 d.actions := by
    intro d hd
    rcases drafts_cases hds with ⟨e, he, rfl⟩ | rfl
    · rw [List.mem_singleton.1 hd]
      exact Edit.lasting_of_build hduration he
    · rcases mem_wanted_iff.1 hd with hscene | hfigure | ⟨-, rfl⟩
      · exact absurd (.inl hscene.1) hstill
      · exact absurd (.inr hfigure.1) hstill
      · exact Shape.lasting_build hduration 0
  rw [htimes] at hsome hbrief
  obtain ⟨t, ht⟩ := List.exists_mem_of_ne_nil _ hsome
  obtain ⟨f, hf, ht⟩ := List.mem_flatMap.1 ht
  obtain ⟨d, hd, _, hgated⟩ := (gated_of_gatedAll hfs).2 f hf
  obtain ⟨r, hr, rfl⟩ := gated_eq_ok hgated
  obtain ⟨q, hq, hle⟩ := exists_time_of_lasting hr (hlasting d hd) (List.ne_nil_of_mem ht)
  exact hbrief ⟨q, List.mem_flatMap.2 ⟨_, hf, hq⟩, hle⟩

/-- If all keyframes of a composition are brief, its plan is hasty. -/
theorem hasty_of_brief (hp : Plan.ofRequest settings r = .ok p) (hphoto : p.wantsPhoto = false)
    (hduration : Reaches 2 p.duration) (hds : drafts p = .ok ds)
    (hfs : gatedAll ds = .ok (fs, whole)) (l : Composition.Layout p fs 0 c)
    (hsome : times c.actions ≠ []) (hbrief : ¬ ∃ t ∈ times c.actions, 2 ≤ t) : p.Hasty := by
  have hbeats := Plan.beats_eq hp
  have hfinish : Reaches 2 p.beats.settle.finish := by
    rw [hbeats]
    exact hduration
  have hdrafts : ∀ d ∈ ds, ¬ Late 2 d.actions := fun d hd hlate =>
    hbrief (exists_time_of_draft hfs l hd hlate)
  have hdriven := driven_isSome_iff_wants hp hds hfs l
  have hweather : p.weather = .none := by
    by_contra hfalls
    exact hbrief (exists_time_of_weather hduration hfalls l)
  have hcamera : p.camera = true → l.driven.isSome ≠ true := fun hmoves hsome =>
    hbrief (exists_time_of_camera hfinish hmoves l hsome)
  have hmoved : p.wantsScene = true ∨ p.wantsCharacter = true := by
    by_contra hstill
    have hnothing : cameraActions p l.driven l.origin = [] := by
      rw [← hdriven, Option.isSome_iff_ne_none, not_not] at hstill
      rw [hstill]
      rfl
    have htimes := times_of_fragments l hweather hnothing
    exact hstill (wants_of_brief hduration hds hfs htimes hsome hbrief)
  obtain rfl := eq_wanted_of_drafts (wanted_ne_nil hp (hmoved.imp_right .inl)) hds
  refine ⟨hphoto, hweather, ?_, fun hpath => ?_, fun hscene => ?_, fun hfigure => ?_, hmoved⟩
  · simpa using fun hmoves => hcamera hmoves (hdriven.2 hmoved)
  · by_contra hdrawn
    exact hdrafts _ (mem_wanted_iff.2 (.inr (.inr ⟨hpath, rfl⟩)))
      (Shape.late_build hduration (by simpa using hdrawn) 0)
  · obtain ⟨make, hmake⟩ := exists_builder hp hscene
    by_contra hlong
    refine hdrafts (make p 0)
      (mem_wanted_iff.2 (.inl ⟨hscene, by simp [Scene.build?, hmake]⟩)) ?_
    exact Scene.late_of_builder? hmake hduration
      (fun hmeadow => hduration.portion (by decide) fun hlt => hlong ⟨hmeadow, hlt⟩) 0
  · by_contra hlong
    refine hdrafts _ (mem_wanted_iff.2 (.inr (.inl ⟨hfigure, rfl⟩))) ?_
    refine Rig.late_animated hfinish fun hspin => ?_
    rw [hbeats] at hlong ⊢
    by_cases hrise : p.duration * 0.25 < 2.0
    · exact .inr (hduration.portion (by decide) fun hrest => hlong ⟨hspin, hrise, hrest⟩)
    · exact .inl (hduration.portion (by decide) hrise)

/-- All keyframes of a hasty plan are brief, and there are some. -/
theorem brief_of_hasty (hp : Plan.ofRequest settings r = .ok p) (hduration : Reaches 2 p.duration)
    (hds : drafts p = .ok ds) (hfs : gatedAll ds = .ok (fs, whole))
    (l : Composition.Layout p fs 0 c) (h : p.Hasty) :
    times c.actions ≠ [] ∧ ∀ t ∈ times c.actions, t < 2 := by
  have hbeats := Plan.beats_eq hp
  obtain rfl := eq_wanted_of_drafts (wanted_ne_nil hp (h.moved.imp_right .inl)) hds
  have hnothing : cameraActions p l.driven l.origin = [] := by
    unfold cameraActions
    rw [h.camera]
    split <;> rfl
  have hmeadow : p.wantsScene = true → ∀ d, Scene.build? p 0 = some d → d = Scene.meadow p 0 := by
    intro hscene d hd
    rw [Scene.build?, (h.scene hscene).1] at hd
    exact (Option.some.inj hd).symm
  constructor
  · have hsome : ∃ t ∈ times c.actions, (0 : Rat) ≤ t := by
      rcases h.moved with hscene | hfigure
      · obtain ⟨make, hmake⟩ := exists_builder hp hscene
        have hbuild : Scene.build? p 0 = some (make p 0) := by simp [Scene.build?, hmake]
        refine exists_time_of_draft hfs l (mem_wanted_iff.2 (.inl ⟨hscene, hbuild⟩)) ?_
        rw [hmeadow hscene _ hbuild]
        exact Scene.late_zero_meadow 0
      · refine exists_time_of_draft hfs l (mem_wanted_iff.2 (.inr (.inl ⟨hfigure, rfl⟩))) ?_
        refine Rig.late_zero_animated (h.figure hfigure).1 ?_
        rw [hbeats]
        exact hduration.settable_portion (by decide)
    obtain ⟨t, ht, -⟩ := hsome
    exact List.ne_nil_of_mem ht
  · rw [times_of_fragments l h.weather hnothing]
    intro t ht
    obtain ⟨f, hf, ht⟩ := List.mem_flatMap.1 ht
    obtain ⟨d, hd, _, hgated⟩ := (gated_of_gatedAll hfs).2 f hf
    obtain ⟨r', hr', rfl⟩ := gated_eq_ok hgated
    refine time_lt_of_allBrief hr' ?_ t ht
    rcases mem_wanted_iff.1 hd with ⟨hscene, hbuild⟩ | ⟨hfigure, rfl⟩ | ⟨hpath, rfl⟩
    · rw [hmeadow hscene d hbuild]
      exact Scene.allBrief_meadow (brief_of_lt (h.scene hscene).2) 0
    · obtain ⟨hspin, hrise, hrest⟩ := h.figure hfigure
      exact Rig.allBrief_animated hspin (brief_of_lt hrise) (brief_of_lt hrest)
    · exact Shape.allBrief_build (h.shape hpath) 0

end Composed

/-! ## Answers -/

theorem lasts_of_safeScene (hduration : Reaches 2 p.duration) {steps : List (PlanStep Float)}
    {o : Outcome Float} (ho : safeScene p steps = .ok o) : Lasts 2 o.actions := by
  obtain ⟨r, hr, ho⟩ := map_eq_ok_iff.1 ho
  have hbuilder : Scene.builder? .genericScene = some (Scene.generic (α := Float)) := rfl
  have hlate : Late 2 (Scene.generic p 0).actions :=
    Scene.late_of_builder? hbuilder hduration (fun h => by cases h) 0
  split at ho
  · rw [← ho]
    simp [Lasts]
  · rw [← ho]
    exact (lasts_iff_of_passAll hr).2 fun _ => exists_time_of_late hr hlate

theorem lasts_compileScene_iff (hp : Plan.ofRequest settings r = .ok p)
    (hends : Scalar.isFinite p.duration = true) (hphoto : p.wantsPhoto = false)
    {o : Outcome Float} (ho : compileScene p = .ok o) : Lasts 2 o.actions ↔ ¬ p.Hasty := by
  have hduration := Plan.reaches_duration hp hends
  obtain ⟨ds, fs, whole, c, passed, hds, hfs, hc, hpassed, ho⟩ := compileScene_eq_ok_iff.1 ho
  obtain ⟨l⟩ := Composition.compose_layout hc
  have hunchanged : Gate.passAll c.actions = .ok ⟨c.actions, []⟩ :=
    unchanged_of_steady (steady_of_compose hp hds hfs hc fun _ => hduration.settable)
  obtain rfl : passed = ⟨c.actions, []⟩ := Except.ok.inj (hpassed.symm.trans hunchanged)
  have hbrief := brief_of_hasty hp hduration hds hfs l
  obtain ⟨⟨hnil, -⟩, hsafe⟩ | ⟨-, rfl⟩ := ho
  · refine iff_of_true (lasts_of_safeScene hduration hsafe) fun hhasty => (hbrief hhasty).1 ?_
    dsimp only at hnil
    rw [hnil]
    rfl
  · dsimp only
    rw [lasts_iff_of_passAll hunchanged]
    constructor
    · intro hlasts hhasty
      obtain ⟨hsome, hall⟩ := hbrief hhasty
      obtain ⟨t, ht, hle⟩ := hlasts hsome
      exact absurd (hall t ht) (not_lt.2 hle)
    · intro hnot hsome
      by_contra hshort
      exact hnot (hasty_of_brief hp hphoto hduration hds hfs l hsome hshort)

theorem lasts_of_compilePhoto (hp : Plan.ofRequest settings r = .ok p)
    (hends : Scalar.isFinite p.duration = true) (hphoto : p.wantsPhoto = true)
    {o : Outcome Float} (ho : compilePhoto p = .ok o) :
    Lasts (if o.summary = Outcome.safeSummary then 2 else p.floor) o.actions := by
  obtain ⟨f, whole, hf, ho⟩ := compilePhoto_eq_ok_iff.1 ho
  obtain ⟨r', hr', rfl⟩ := gated_eq_ok hf
  obtain ⟨-, hsafe⟩ | ⟨-, ho⟩ := ho
  · rw [if_pos (summary_of_safeScene hsafe)]
    exact lasts_of_safeScene (Plan.reaches_duration hp hends) hsafe
  · have hlasting : Lasting p.floor (Photo.build p 0).actions := by
      unfold Plan.floor Photo.build
      rw [if_pos hphoto]
      split
      · exact lasting_of_late (Photo.late_layers hends 0)
      · exact Photo.lasting_pan hends 0
    obtain ⟨hsummary, hactions⟩ :
        o.summary = (Photo.build p 0).summary ∧ o.actions = r'.actions := by
      rw [← ho]
      exact ⟨rfl, rfl⟩
    have hown : o.summary ≠ Outcome.safeSummary := by
      rw [hsummary]
      exact (ne_of_telling (Photo.told_build p 0)).1
    rw [if_neg hown, hactions]
    exact (lasts_iff_of_passAll hr').2 (exists_time_of_lasting hr' hlasting)

/-- The keyframes of an answer to a plan that ends reach two seconds, three for a photo and four
for a photo in layers, unless the plan is hasty; the scene that stands in for a photo reaches two.
No answer to a hasty plan does, as long as there is one. -/
theorem answer_lasts (hp : Plan.ofRequest settings r = .ok p)
    (hends : Scalar.isFinite p.duration = true) :
    (¬ p.Hasty → Lasts (if (answer settings r).summary = Outcome.safeSummary then 2 else p.floor)
      (answer settings r).actions) ∧
    (p.Hasty → (answer settings r).summary ≠ Outcome.failureSummary →
      ¬ Lasts 2 (answer settings r).actions) := by
  have hattempt : attempt settings r = compile p := by
    rw [attempt, hp]
    rfl
  unfold answer
  rw [hattempt]
  cases ho : compile p with
  | error fault => simp [Lasts, Outcome.failure]
  | ok o =>
      dsimp only
      unfold compile at ho
      split at ho
      · rename_i hphoto
        refine ⟨fun _ => lasts_of_compilePhoto hp hends hphoto ho, fun hhasty => ?_⟩
        rw [hhasty.photo] at hphoto
        cases hphoto
      · rename_i hphoto
        have hphoto : p.wantsPhoto = false := by simpa using hphoto
        have hfloor : p.floor = 2 := by simp [Plan.floor, hphoto]
        have hlasts := lasts_compileScene_iff hp hends hphoto ho
        rw [hfloor, ite_self]
        exact ⟨hlasts.2, fun hhasty _ hlasting => hlasts.1 hlasting hhasty⟩

/-- The picture that is animated with some depth lasts for three seconds. -/
def postcard : Request Float where
  prompt := "animate this photo with parallax"
  selected := some { id := "picture", kind := "image" }
  duration := some 2.5

theorem answer_lasts_postcard :
    ∃ p, Plan.ofRequest (Settings.read fun _ => none) postcard = .ok p ∧
      Scalar.isFinite p.duration = true ∧ ¬ p.Hasty ∧
      Lasts (if (answer (Settings.read fun _ => none) postcard).summary = Outcome.safeSummary then 2
        else p.floor) (answer (Settings.read fun _ => none) postcard).actions := by
  have hcount : Measure.count (Features.normalize postcard.prompt).toList = .ok 1 := by rfl
  have hseconds : Scalar.isFinite (Scalar.max Plan.minDuration
      (postcard.duration.getD (Settings.read fun _ => none).duration) : Float) = true := by
    decide
  obtain ⟨f, hf, hphoto⟩ : ∃ f : Features Float, Features.ofText postcard.prompt = .ok f ∧
      f.mentions .photo = true := by
    unfold Features.ofText
    dsimp only
    rw [hcount]
    exact ⟨_, rfl, by decide +kernel⟩
  obtain ⟨p, hp, hwants, hends⟩ : ∃ p : Plan Float,
      Plan.ofRequest (Settings.read fun _ => none) postcard = .ok p ∧ p.wantsPhoto = true ∧
        Scalar.isFinite p.duration = true := by
    unfold Plan.ofRequest
    rw [hf]
    exact ⟨_, rfl, by simp [hphoto], hseconds⟩
  have hnot : ¬ p.Hasty := by
    intro hhasty
    rw [hhasty.photo] at hwants
    cases hwants
  exact ⟨p, hp, hends, hnot, (answer_lasts hp hends).1 hnot⟩

/-- A meadow, for four seconds. -/
def glade : Request Float where
  prompt := "meadow"

/-- All that moves on the meadow is at rest after 1.6 seconds. -/
theorem answer_glade_short :
    ¬ Lasts 2 (answer (Settings.read fun _ => none) glade).actions := by
  have hshort : (∃ a ∈ (answer (Settings.read fun _ => none) glade).actions,
      ActionName.ofValue? a = some .addKeyframe) ∧
      ∀ t ∈ times (answer (Settings.read fun _ => none) glade).actions, t < 2 := by
    decide +kernel
  intro hlasts
  obtain ⟨t, ht, hle⟩ := hlasts hshort.1
  exact absurd (hshort.2 t ht) (not_lt.2 hle)

end Compiler

end Storyboard
