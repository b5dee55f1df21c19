import Storyboard.Proofs.Compiler.Coherence
import Storyboard.Proofs.Draft.Timely
/-!
# Answers in time

In exact arithmetic, whatever answers a plan that wants a photo, a scene, a figure or a shape has
its keyframes between zero and the plan's duration, or the photo's, and on every track they rise:
drafts do, composing keeps their tracks apart and the camera off the tracks of the anchor, and the
gate only drops keyframes.
-/

namespace Storyboard

open Placeholder (textRuns)
open Stamp (Rising Separate)

/-! ## Plans -/

namespace Plan

variable {p : Plan Rat}

/-- How long the keyframes of a plan can last. -/
def span (p : Plan Rat) : Rat :=
  if p.wantsPhoto then
    if p.wantsLayers then Scalar.max 4.0 p.duration else Scalar.max 3.0 p.duration
  else p.duration

theorem duration_le_span (p : Plan Rat) : p.duration ≤ p.span := by
  unfold span
  split
  · split
    · exact (le_scalar_max 4.0 p.duration).2
    · exact (le_scalar_max 3.0 p.duration).2
  · exact le_refl _

theorem duration_pos {settings : Settings Rat} {r : Request Rat}
    (h : ofRequest settings r = .ok p) : 0 < p.duration := by
  obtain ⟨f, -, rfl⟩ := map_eq_ok_iff.1 h
  exact lt_of_lt_of_le (by norm_num [minDuration]) (le_scalar_max minDuration _).1

theorem stepped {settings : Settings Rat} {r : Request Rat} (h : ofRequest settings r = .ok p) :
    p.beats.Stepped p.duration := by
  have hpos := duration_pos h
  obtain ⟨f, -, rfl⟩ := map_eq_ok_iff.1 h
  exact Beats.stepped_ofDuration hpos

end Plan

namespace Compiler

/-! ## Fragments -/

theorem textRuns_of_animatable : ∀ name ∈ Gate.animatable, textRuns name = [] := by
  intro name hname
  refine Placeholder.textRuns_of_not_mem_brace ?_
  revert name
  decide

variable {p : Plan Rat}

theorem timely_of_wanted (h : 0 < p.duration) (hbeats : p.beats.Stepped p.duration) {d : Draft Rat}
    (hd : d ∈ wanted p) : Timely p.duration d.actions := by
  rcases mem_wanted hd with hscene | rfl | rfl
  · obtain ⟨make, hmake, rfl⟩ := Option.map_eq_some_iff.1 hscene
    exact Scene.timely_of_builder? hmake h 0
  · exact Rig.timely_animated hbeats 0
  · exact Shape.timely_build h 0

/-- What the gate leaves of a grounded draft in time can be joined. -/
theorem traced_of_gated {duration : Rat} {d : Draft Rat} {f : Fragment Rat} {whole : Bool}
    (hd : d.Grounded [] 0) (htimely : Timely duration d.actions)
    (h : gated d.fragment = .ok (f, whole)) : Composition.Traced duration f := by
  obtain ⟨r, hr, rfl⟩ := gated_eq_ok h
  have hspares := spares_of_grounded hd
  obtain ⟨count, -, hadds⟩ := hd.adds
  have hids : addedIds r.actions = (List.range' 1 count).map Placeholder.id := by
    rw [Gate.addedIds_of_passFrom hr hspares, addedIds_fragment hadds]
  have hsub : (stamps r.actions).Sublist (stampsOf d.actions) := by
    have hpassed := Gate.stamps_sublist_of_passFrom hr
    rwa [Draft.fragment, stamps_map_toValue] at hpassed
  have hclosed := Gate.closed_of_passFrom hr hspares hd.closed
  refine ⟨⟨htimely.rising.sublist hsub, fun s hs => htimely.timed s (hsub.subset hs), ?_⟩, ?_, ?_⟩
  · intro s hs
    rcases element_of_closed hclosed s hs with hknown | hadded
    · exact absurd hknown List.not_mem_nil
    · rw [hids] at hadded
      obtain ⟨k, hk, heq⟩ := List.mem_map.1 hadded
      have hpos := (List.mem_range'_1.1 hk).1
      have hpeak := le_peakOf_of_stamp (f := { d.fragment with actions := r.actions }) hs heq.symm
      exact ⟨k, hpos, hpeak, heq.symm⟩
  · intro s hs
    obtain ⟨b, hb, hstamp⟩ := List.mem_filterMap.1 hs
    obtain ⟨a, -, hpass⟩ := Gate.exists_pass_of_mem hr b hb
    obtain ⟨t, ht, hproperty⟩ :=
      Gate.exists_stamp_of_pass hpass (stamp?_eq_some_iff.1 hstamp).1
    obtain rfl : t = s := Option.some.inj (ht.symm.trans hstamp)
    exact textRuns_of_animatable _ hproperty
  · intro root hroot
    have hadded : root ∈ addedIds r.actions := by
      rw [Gate.addedIds_of_passFrom hr hspares]
      exact rooted_fragment hd root hroot
    have hmem := hadded
    rw [hids] at hmem
    obtain ⟨k, hk, rfl⟩ := List.mem_map.1 hmem
    have hpos := (List.mem_range'_1.1 hk).1
    exact ⟨k, hpos, Composition.le_peakOf_of_mem_addedIds
      (f := { d.fragment with actions := r.actions }) hadded (Placeholder.wholeNumber?_id k), rfl⟩

theorem traced_of_gatedAll {duration : Rat} {ds : List (Draft Rat)} {fs : List (Fragment Rat)}
    {whole : Bool} (hds : ∀ d ∈ ds, d.Grounded [] 0 ∧ Timely duration d.actions)
    (h : gatedAll ds = .ok (fs, whole)) : ∀ f ∈ fs, Composition.Traced duration f := by
  intro f hf
  obtain ⟨d, hd, _, hgated⟩ := (gated_of_gatedAll h).2 f hf
  exact traced_of_gated (hds d hd).1 (hds d hd).2 hgated

/-! ## Answers -/

/-- The keyframes of an answer have stamps from zero to `duration` that rise on every track. -/
structure InTime (duration : Rat) (actions : List (Value Rat)) : Prop where
  timed : ∀ a ∈ actions, ActionName.ofValue? a = some .addKeyframe →
    ∃ s, stamp? a = some s ∧ 0 ≤ s.time ∧ s.time ≤ duration
  rising : Rising (stamps actions)

theorem inTime_nil (duration : Rat) : InTime duration [] := ⟨by simp, List.Pairwise.nil⟩

/-- What the gate leaves of a sequence in time is in time. -/
theorem inTime_of_passAll {duration : Rat} {as : List (Value Rat)} {r : Passage Rat}
    (h : Gate.passAll as = .ok r) (hrising : Rising (stamps as))
    (htimed : ∀ s ∈ stamps as, 0 ≤ s.time ∧ s.time ≤ duration) : InTime duration r.actions := by
  have hsub := Gate.stamps_sublist_of_passFrom h
  refine ⟨fun b hb hname => ?_, hrising.sublist hsub⟩
  obtain ⟨a, -, hpass⟩ := Gate.exists_pass_of_mem h b hb
  obtain ⟨s, hs, -⟩ := Gate.exists_stamp_of_pass hpass hname
  exact ⟨s, hs, htimed s (hsub.subset (List.mem_filterMap.2 ⟨b, hb, hs⟩))⟩

theorem inTime_of_timely {duration : Rat} {d : Draft Rat} {r : Passage Rat}
    (h : Gate.passAll d.fragment.actions = .ok r) (htimely : Timely duration d.actions) :
    InTime duration r.actions := by
  have hstamps : stamps d.fragment.actions = stampsOf d.actions := by
    rw [Draft.fragment, stamps_map_toValue]
    rfl
  exact inTime_of_passAll h (hstamps ▸ htimely.rising) (hstamps ▸ htimely.timed)

theorem inTime_of_safeScene (h : 0 < p.duration) {steps : List (PlanStep Rat)} {o : Outcome Rat}
    (ho : safeScene p steps = .ok o) : InTime p.span o.actions := by
  obtain ⟨r, hr, ho⟩ := map_eq_ok_iff.1 ho
  have hall := inTime_of_timely hr ((Scene.timely_generic h 0).mono p.duration_le_span)
  split at ho
  · rw [← ho]
    exact inTime_nil _
  · rw [← ho]
    exact hall

theorem inTime_of_compilePhoto (h : 0 < p.duration) (hphoto : p.wantsPhoto = true)
    (hcanvas : ∀ id ∈ p.canvas, ∀ k, id ≠ Placeholder.id k) {o : Outcome Rat}
    (ho : compilePhoto p = .ok o) : InTime p.span o.actions := by
  obtain ⟨f, whole, hf, ⟨-, hsafe⟩ | ⟨-, rfl⟩⟩ := compilePhoto_eq_ok_iff.1 ho
  · exact inTime_of_safeScene h hsafe
  · obtain ⟨r, hr, rfl⟩ := gated_eq_ok hf
    rw [Plan.span, if_pos hphoto]
    exact inTime_of_timely hr (Photo.timely_build hcanvas 0)

theorem timeline_of_compose (h : 0 < p.duration) (hbeats : p.beats.Stepped p.duration)
    {fs : List (Fragment Rat)} {whole : Bool} {c : Composition Rat}
    (hfs : gatedAll (wanted p) = .ok (fs, whole)) (hc : Composition.compose p fs 0 = .ok c) :
    Composition.Timeline p.duration c.steps ∧
      stamps c.actions = c.steps.flatMap fun step => stamps step.actions :=
  Composition.timeline_compose hc
    (traced_of_gatedAll (fun _ hd => ⟨grounded_of_wanted hd, timely_of_wanted h hbeats hd⟩) hfs)
    (Plan.laid h hbeats)

theorem inTime_of_compileScene (h : 0 < p.duration) (hbeats : p.beats.Stepped p.duration)
    (hphoto : p.wantsPhoto ≠ true) (hwanted : wanted p ≠ []) {o : Outcome Rat}
    (ho : compileScene p = .ok o) : InTime p.span o.actions := by
  obtain ⟨ds, fs, whole, c, r, hds, hfs, hc, hr, ⟨-, hsafe⟩ | ⟨-, rfl⟩⟩ :=
    compileScene_eq_ok_iff.1 ho
  · exact inTime_of_safeScene h hsafe
  · obtain rfl := eq_wanted_of_drafts hwanted hds
    obtain ⟨⟨hrising, htimed, hseparate⟩, hstamps⟩ := timeline_of_compose h hbeats hfs hc
    rw [Plan.span, if_neg hphoto]
    refine inTime_of_passAll hr ?_ ?_ <;> rw [hstamps]
    · exact Stamp.rising_flatMap hrising hseparate
    · intro s hs
      obtain ⟨step, hstep, hs⟩ := List.mem_flatMap.1 hs
      exact htimed step hstep s hs

/-- In exact arithmetic, a request that wants a photo, a scene, a figure or a shape, and has no
placeholder for an id, is answered with keyframes from zero to the duration of its plan, or of the
photo, whose times rise on every track.  No two steps of what is composed share a track: so the
camera never moves a property of its anchor that has keyframes already. -/
theorem answer_inTime {settings : Settings Rat} {r : Request Rat} {p : Plan Rat}
    (hp : Plan.ofRequest settings r = .ok p)
    (hwants : p.wantsPhoto = true ∨ p.wantsScene = true ∨ p.wantsCharacter = true ∨
      p.wantsPath = true)
    (hids : ∀ e ∈ r.selected.toList ++ r.existing, ∀ k, e.id ≠ Placeholder.id k) :
    InTime p.span (answer settings r).actions ∧
      ∀ fs whole c, gatedAll (wanted p) = .ok (fs, whole) →
        Composition.compose p fs 0 = .ok c →
        c.steps.Pairwise fun step later =>
          Separate (stamps step.actions) (stamps later.actions) := by
  have hpos := Plan.duration_pos hp
  have hbeats := Plan.stepped hp
  refine ⟨?_, fun fs whole c hfs hc => (timeline_of_compose hpos hbeats hfs hc).1.separate⟩
  unfold answer attempt
  rw [hp, ok_bind]
  cases ho : compile p with
  | error f => exact inTime_nil _
  | ok o =>
      unfold compile at ho
      split at ho
      · rename_i hphoto
        refine inTime_of_compilePhoto hpos hphoto (fun id hid => ?_) ho
        obtain ⟨f, -, rfl⟩ := map_eq_ok_iff.1 hp
        obtain ⟨e, he, rfl⟩ := List.mem_map.1 hid
        exact hids e he
      · rename_i hphoto
        exact inTime_of_compileScene hpos hbeats hphoto
          (wanted_ne_nil hp (hwants.resolve_left hphoto)) ho

/-- A robot that walks through the snow at sunset, past a circle, under a moving camera. -/
def stroll : Request Rat where
  prompt := "a robot walks through snow at sunset, camera pan left"
  existing := [{ id := "sun", kind := "circle" }]

theorem answer_inTime_stroll :
    ∃ p, Plan.ofRequest (Settings.read fun _ => none) stroll = .ok p ∧ p.wantsScene = true ∧
      (∀ e ∈ stroll.selected.toList ++ stroll.existing, ∀ k, e.id ≠ Placeholder.id k) ∧
      InTime p.span (answer (Settings.read fun _ => none) stroll).actions := by
  have hcount : Measure.count (Features.normalize stroll.prompt).toList = .ok 1 := by rfl
  obtain ⟨f, hf, hsunset, hexisting⟩ : ∃ f : Features Rat, Features.ofText stroll.prompt = .ok f ∧
      f.any Intent.sceneKeywords = true ∧ f.mentions .existing = false := by
    unfold Features.ofText
    dsimp only
    rw [hcount]
    exact ⟨_, rfl, by decide +kernel, by decide +kernel⟩
  obtain ⟨p, hp, hscene⟩ : ∃ p : Plan Rat,
      Plan.ofRequest (Settings.read fun _ => none) stroll = .ok p ∧ p.wantsScene = true := by
    unfold Plan.ofRequest
    rw [hf]
    exact ⟨_, rfl, by simp [hsunset, hexisting]⟩
  have hids : ∀ e ∈ stroll.selected.toList ++ stroll.existing, ∀ k, e.id ≠ Placeholder.id k := by
    intro e he
    obtain rfl : e = { id := "sun", kind := "circle" } := List.mem_singleton.1 he
    exact Placeholder.ne_id_of_not_mem_brace (by decide)
  exact ⟨p, hp, hscene, hids, (answer_inTime hp (.inr (.inl hscene)) hids).1⟩

end Compiler

end Storyboard
