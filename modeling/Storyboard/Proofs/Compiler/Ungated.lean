import Storyboard.Generator
import Storyboard.Proofs.Compiler.Coherence
import Storyboard.Proofs.Draft.Fitting
/-!
# The compiler without its gate

For a plan whose duration leaves room for its shares and whose elements are named, the gate changes
nothing about what the compiler makes: not about a draft, and not about drafts that are composed.
So the compiler answers as it would without a gate, and never with the scene that stands in.
-/

namespace Storyboard

open Composition (Rooted Numbered wrapperId? firstNumber anchorId?)
open Gate (Steady)

/-- The gate passes the actions as they are. -/
def Unchanged (actions : List (Value Float)) : Prop :=
  Gate.passAll actions = .ok ⟨actions, []⟩

theorem unchanged_of_steady {actions : List (Value Float)} (h : ∀ a ∈ actions, Steady a) :
    Unchanged actions :=
  Gate.passFrom_of_steady h

theorem steady_map_toValue {as : List (Action Float)} (h : ∀ a ∈ as, a.Fits) :
    ∀ v ∈ as.map Action.toValue, Steady v := by
  rw [List.forall_mem_map]
  exact fun a ha => Action.steady_of_fits (h a ha)

/-! ## Plans -/

/-- The duration leaves room, the beats are its shares, what the prompt says is in range, and the
elements on the canvas are named. -/
structure Plan.Measured (p : Plan Float) : Prop where
  roomy : Roomy p.duration
  paced : p.beats.Paced
  tempered : p.features.Tempered
  named : ∀ id ∈ p.canvas, Named id

theorem Plan.measured_of_ofRequest {settings : Settings Float} {r : Request Float}
    {p : Plan Float} (h : Plan.ofRequest settings r = .ok p) (hduration : p.duration ≤ 1e300)
    (hcanvas : ∀ id ∈ p.canvas, ∃ c ∈ id.toList, Text.isBlank c = false) : p.Measured := by
  obtain ⟨f, hf, rfl⟩ := map_eq_ok_iff.1 h
  have hroomy := roomy_of_le hduration
  exact ⟨hroomy, Beats.paced_ofDuration hroomy, Features.tempered_of_ofText hf,
    fun id hid => Gate.isNamed_text_iff.2 (hcanvas id hid)⟩

theorem Generator.fits_of_draft? {g : Generator} {p : Plan Float} {n : Nat} {d : Draft Float}
    (h : p.Measured) (hd : g.draft? p n = .ok (some d)) : d.Fits := by
  cases g with
  | scene =>
      simp only [draft?, Except.ok.injEq] at hd
      exact Scene.fits_of_build? h.roomy hd
  | sceneOf a =>
      simp only [draft?, Except.ok.injEq] at hd
      obtain ⟨make, hmake, rfl⟩ := Option.map_eq_some_iff.1 hd
      exact Scene.fits_of_builder? h.roomy hmake n
  | edit =>
      obtain ⟨d', hbuild, hsome⟩ := map_eq_ok_iff.1 hd
      rw [Option.some.injEq] at hsome
      exact hsome ▸ Edit.fits_of_build h.roomy h.tempered h.named hbuild
  | figure =>
      simp only [draft?, Except.ok.injEq, Option.some.injEq] at hd
      exact hd ▸ Rig.fits_animated h.paced n
  | rig =>
      simp only [draft?, Except.ok.injEq, Option.some.injEq] at hd
      exact hd ▸ Rig.fits_draft n
  | shape =>
      simp only [draft?, Except.ok.injEq, Option.some.injEq] at hd
      exact hd ▸ Shape.fits_build h.roomy n
  | photo =>
      simp only [draft?, Except.ok.injEq, Option.some.injEq] at hd
      exact hd ▸ Photo.fits_build h.roomy h.named n
  | pan =>
      simp only [draft?, Except.ok.injEq, Option.some.injEq] at hd
      exact hd ▸ Photo.fits_pan h.roomy h.named n
  | layers =>
      simp only [draft?, Except.ok.injEq, Option.some.injEq] at hd
      exact hd ▸ Photo.fits_layers h.roomy h.named n

/-! ## Compositions -/

namespace Composition.Layout

variable {p : Plan Float} {fs : List (Fragment Float)} {n : Nat} {c : Composition Float}

/-- What camera and weather hold on to: the wrapper, or else the anchor. -/
def driven (l : Layout p fs n c) : Option String :=
  (wrapperId? l.wrapped n).or (anchorId? (firstNumber l.wrapped n) fs)

/-- What is composed of steady fragments is steady, as long as the times of camera and weather can
be set. -/
theorem steady (l : Layout p fs n c) (hsteady : ∀ f ∈ fs, ∀ a ∈ f.actions, Steady a)
    (hrooted : ∀ f ∈ fs, Rooted f) (hnumbered : ∀ f ∈ fs, Numbered (addedIds f.actions))
    (hcamera : p.camera = true → l.driven.isSome = true →
      Settable p.beats.intro.start ∧ Settable p.beats.settle.finish)
    (hweather : p.weather ≠ .none → Settable p.duration) : ∀ a ∈ c.actions, Steady a := by
  have hnamed : ∀ s, l.driven = some s → Named s := by
    intro s hs
    rcases Option.or_eq_some_iff.1 hs with hwrap | ⟨-, hanchor⟩
    · simp only [wrapperId?, Option.ite_none_right_eq_some, Option.some.injEq] at hwrap
      rw [← hwrap.2]
      exact named_id _
    · have hall : Numbered (addedIds
          (Composition.emittedAll none true (firstNumber l.wrapped n) fs)) :=
        Composition.numbered_emittedAll hnumbered
      obtain ⟨k, rfl⟩ := hall s (Composition.mem_of_anchorId? hanchor hrooted)
      exact named_id k
  rw [l.actions_eq]
  simp only [List.forall_mem_append]
  refine ⟨⟨⟨?_, Composition.portable_steady.every_emittedAll hsteady⟩, ?_⟩, ?_⟩
  · cases l.wrapped with
    | false => simp [wrapperId?, Composition.wrapperActions]
    | true =>
        rw [wrapperId?, if_pos rfl, Composition.wrapperActions, List.forall_mem_singleton]
        exact Action.steady_of_fits (Action.fits_group (named_id _) (by simp))
  · refine steady_map_toValue ?_
    unfold Composition.cameraActions
    split
    · rename_i id hid
      by_cases hmoves : p.camera = true
      · obtain ⟨hstart, hfinish⟩ := hcamera hmoves (Option.isSome_iff_exists.2 ⟨id, hid⟩)
        exact forall_mem_ite_nil (Camera.fits (hnamed id hid) hstart hfinish)
      · rw [if_neg hmoves]
        exact List.forall_mem_nil _
    · simp
  · refine steady_map_toValue ?_
    by_cases hfalls : p.weather = .none
    · simp [Weather.overlay, hfalls]
    · exact Weather.fits (hweather hfalls) _ _ _

end Composition.Layout

/-! ## Summaries -/

/-- The text is not the start of one of the answers that stand in for a scene, nor of the one for
a request that cannot be carried out. -/
def Telling (s : String) : Prop :=
  ¬ s.toList <+: Outcome.safeSummary.toList ∧
    ¬ s.toList <+: Outcome.unrecoverableSummary.toList ∧
    ¬ s.toList <+: Outcome.failureSummary.toList

theorem telling_ofList {s : String} {cs safe last failed : List Char} (hs : s = String.ofList cs)
    (hsafe : Outcome.safeSummary = String.ofList safe)
    (hlast : Outcome.unrecoverableSummary = String.ofList last)
    (hfailed : Outcome.failureSummary = String.ofList failed)
    (h : ¬ cs <+: safe ∧ ¬ cs <+: last ∧ ¬ cs <+: failed) : Telling s := by
  rw [Telling, hs, hsafe, hlast, hfailed, String.toList_ofList, String.toList_ofList,
    String.toList_ofList, String.toList_ofList]
  exact h

theorem telling_append {s t : String} (h : Telling s) : Telling (s ++ t) := by
  simp only [Telling, String.toList_append]
  exact ⟨fun hsafe => h.1 ((List.prefix_append _ _).trans hsafe),
    fun hlast => h.2.1 ((List.prefix_append _ _).trans hlast),
    fun hfailed => h.2.2 ((List.prefix_append _ _).trans hfailed)⟩

theorem telling_intercalate {notes : List String} (h : ∀ s ∈ notes, Telling s) :
    " ".intercalate notes = "" ∨ Telling (" ".intercalate notes) := by
  cases notes with
  | nil => exact .inl rfl
  | cons s rest =>
      refine .inr ?_
      cases rest with
      | nil =>
          rw [String.intercalate_singleton]
          exact h s (by simp)
      | cons t rest =>
          rw [String.intercalate_cons_cons]
          exact telling_append (telling_append (h s (by simp)))

theorem ne_of_telling {s : String} (h : s = "" ∨ Telling s) :
    s ≠ Outcome.safeSummary ∧ s ≠ Outcome.unrecoverableSummary := by
  rcases h with rfl | h
  · decide
  · constructor
    · rintro rfl
      exact h.1 (List.prefix_refl _)
    · rintro rfl
      exact h.2.1 (List.prefix_refl _)

theorem ne_failure_of_telling {s : String} (h : s = "" ∨ Telling s) :
    s ≠ Outcome.failureSummary := by
  rcases h with rfl | h
  · decide
  · rintro rfl
    exact h.2.2 (List.prefix_refl _)

/-- The summary is empty or tells what was made. -/
def Draft.Told (d : Draft Float) : Prop := d.summary = "" ∨ Telling d.summary

theorem Scene.told_of_build? {p : Plan Float} {n : Nat} {d : Draft Float}
    (h : build? p n = some d) : d.Told := by
  obtain ⟨make, hmake, rfl⟩ := Option.map_eq_some_iff.1 h
  cases harchetype : p.archetype <;>
    simp only [harchetype, builder?, Option.some.injEq, reduceCtorEq] at hmake <;>
    subst hmake <;> refine .inr ?_ <;>
    dsimp only [sunset, ocean, city, forest, mountain, desert, space, neonStudio, meadow, generic,
      inGroup] <;>
    exact telling_ofList rfl rfl rfl rfl (by decide)

theorem Rig.told_animated (p : Plan Float) (n : Nat) : (animated p n).Told := by
  refine .inr ?_
  show Telling (summary (buildOf p))
  cases buildOf p <;> exact telling_ofList rfl rfl rfl rfl (by decide)

theorem Shape.told_build (p : Plan Float) (n : Nat) : (build p n).Told := by
  have hall : ∀ r ∈ (rules : List (Rule Float)), Telling r.summary := by
    simp only [rules, List.forall_mem_cons, List.not_mem_nil, false_imp_iff, implies_true, and_true]
    refine ⟨?_, ?_, ?_, ?_, ?_, ?_, ?_⟩ <;> exact telling_ofList rfl rfl rfl rfl (by decide)
  refine .inr ?_
  show Telling (rule p).summary
  unfold rule
  cases hfind : (rules : List (Rule Float)).find? fun r => p.mentions r.keyword with
  | none => exact telling_ofList rfl rfl rfl rfl (by decide)
  | some r => exact hall r (List.mem_of_find?_eq_some hfind)

theorem Photo.told_build (p : Plan Float) (n : Nat) : (build p n).Told := by
  refine .inr ?_
  unfold build
  split
  · show Telling "Split photo into background and subject layers with separate motion."
    exact telling_ofList rfl rfl rfl rfl (by decide)
  · show Telling "Applied a Ken Burns photo animation with gentle parallax."
    exact telling_ofList rfl rfl rfl rfl (by decide)

namespace Edit

theorem telling_repaint (f : Features Float) : ∀ s ∈ (repaint f).2, Telling s := by
  unfold repaint
  split
  · split
    · rw [List.forall_mem_singleton]
      exact telling_ofList rfl rfl rfl rfl (by decide)
    · simp
  · simp

theorem told_drafted {notes : List String} (actions : List (Action Float)) (n : Nat)
    (h : ∀ s ∈ notes, Telling s) : (drafted notes actions n).Told :=
  telling_intercalate h

theorem telling_change (p : Plan Float) (e : Element Float) : ∀ s ∈ (change p e).2, Telling s := by
  refine List.forall_mem_append.2 ⟨fun s hs => ?_, fun s hs => ?_⟩
  · rw [List.mem_singleton.1 (List.mem_ite_nil_left.1 hs).2]
    exact telling_ofList rfl rfl rfl rfl (by decide)
  · rw [List.mem_singleton.1 (List.mem_ite_nil_left.1 hs).2]
    exact telling_ofList rfl rfl rfl rfl (by decide)

theorem telling_create (p : Plan Float) (n : Nat) : ∀ s ∈ (create p n).2, Telling s := by
  refine List.forall_mem_cons.2
    ⟨telling_append (telling_append (telling_ofList rfl rfl rfl rfl (by decide))), ?_⟩
  refine forall_mem_ite_nil ?_
  rw [List.forall_mem_singleton]
  exact telling_ofList rfl rfl rfl rfl (by decide)

theorem told_of_build {p : Plan Float} {n : Nat} {d : Draft Float} (h : build p n = .ok d) :
    d.Told := by
  rcases build_cases h with hall | rfl | ⟨e, -, rfl⟩
  · simp only [forAll?, Option.ite_none_right_eq_some, Option.some.injEq] at hall
    rw [← hall.2]
    refine told_drafted _ _ (List.forall_mem_append.2 ⟨telling_repaint _, ?_⟩)
    rw [List.forall_mem_singleton]
    exact telling_ofList rfl rfl rfl rfl (by decide)
  · exact told_drafted _ _ (List.forall_mem_append.2 ⟨telling_repaint _, telling_create p n⟩)
  · refine told_drafted _ _ (List.forall_mem_append.2
      ⟨List.forall_mem_append.2 ⟨telling_repaint _, telling_change p e⟩, ?_⟩)
    refine forall_mem_ite_nil ?_
    rw [List.forall_mem_singleton]
    exact telling_ofList rfl rfl rfl rfl (by decide)

end Edit

/-! ## The compiler -/

namespace Compiler

/-- The answer to a plan as it would be without a gate. -/
def ungated {α : Type} [Scalar α] (p : Plan α) : Except Fault (Outcome α) :=
  if p.wantsPhoto then
    let f := (Photo.build p 0).fragment
    .ok ⟨f.summary, f.actions, [⟨f.title, f.actions⟩]⟩
  else do
    let ds ← drafts p
    let c ← (Composition.compose p (ds.map Draft.fragment) 0).mapError (·.1)
    return ⟨c.summary, c.actions, c.steps⟩

theorem gated_of_fits {d : Draft Float} (h : d.Fits) : gated d.fragment = .ok (d.fragment, true) := by
  have hunchanged : Unchanged d.fragment.actions := unchanged_of_steady (steady_map_toValue h)
  unfold gated
  rw [hunchanged]
  rfl

theorem gatedAll_of_fits {ds : List (Draft Float)} (h : ∀ d ∈ ds, d.Fits) :
    gatedAll ds = .ok (ds.map Draft.fragment, true) := by
  induction ds with
  | nil => rfl
  | cons d ds ih =>
      obtain ⟨hd, hds⟩ := List.forall_mem_cons.1 h
      simp [gatedAll, gated_of_fits hd, ih hds]

theorem fits_of_drafts {p : Plan Float} {ds : List (Draft Float)} (h : p.Measured)
    (hds : drafts p = .ok ds) : ∀ d ∈ ds, d.Fits := by
  rcases drafts_cases hds with ⟨d, hd, rfl⟩ | rfl
  · rw [List.forall_mem_singleton]
    exact Edit.fits_of_build h.roomy h.tempered h.named hd
  · intro d hd
    rcases mem_wanted hd with hd | rfl | rfl
    · exact Scene.fits_of_build? h.roomy hd
    · exact Rig.fits_animated h.paced 0
    · exact Shape.fits_build h.roomy 0

theorem grounded_of_drafts {p : Plan Float} {ds : List (Draft Float)}
    (hds : drafts p = .ok ds) : ∀ d ∈ ds, ∃ known, d.Grounded known 0 := by
  rcases drafts_cases hds with ⟨d, hd, rfl⟩ | rfl
  · rw [List.forall_mem_singleton]
    exact ⟨_, Edit.grounded_of_build hd⟩
  · exact fun d hd => ⟨_, grounded_of_wanted hd⟩

theorem told_of_drafts {p : Plan Float} {ds : List (Draft Float)} (hds : drafts p = .ok ds) :
    ∀ d ∈ ds, d.Told := by
  rcases drafts_cases hds with ⟨d, hd, rfl⟩ | rfl
  · rw [List.forall_mem_singleton]
    exact Edit.told_of_build hd
  · intro d hd
    rcases mem_wanted hd with hd | rfl | rfl
    · exact Scene.told_of_build? hd
    · exact Rig.told_animated p 0
    · exact Shape.told_build p 0

theorem unchanged_of_compose {p : Plan Float} {ds : List (Draft Float)} {c : Composition Float}
    (h : p.Measured) (hds : drafts p = .ok ds)
    (hc : Composition.compose p (ds.map Draft.fragment) 0 = .ok c) : Unchanged c.actions := by
  obtain ⟨l⟩ := Composition.compose_layout hc
  refine unchanged_of_steady (l.steady ?_ ?_ ?_ (fun _ _ => ⟨h.paced.start, h.paced.finish⟩)
    fun _ => h.roomy.settable) <;> rw [List.forall_mem_map] <;> intro d hd
  · exact steady_map_toValue (fits_of_drafts h hds d hd)
  · obtain ⟨known, hgrounded⟩ := grounded_of_drafts hds d hd
    exact rooted_fragment hgrounded
  · obtain ⟨known, hgrounded⟩ := grounded_of_drafts hds d hd
    obtain ⟨count, -, hadds⟩ := hgrounded.adds
    rw [addedIds_fragment hadds]
    exact Composition.numbered_map_id _

/-- The gate changes nothing about the answer. -/
theorem compile_eq_ungated {p : Plan Float} (h : p.Measured) : compile p = ungated p := by
  unfold compile ungated
  split
  · simp [compilePhoto, gated_of_fits (Photo.fits_build h.roomy h.named 0)]
  · unfold compileScene
    cases hds : drafts p with
    | error f => rfl
    | ok ds =>
        simp only [ok_bind, gatedAll_of_fits (fits_of_drafts h hds)]
        cases hc : Composition.compose p (ds.map Draft.fragment) 0 with
        | error f => rfl
        | ok c =>
            have hunchanged := unchanged_of_compose h hds hc
            unfold Unchanged at hunchanged
            simp only [mapError_ok, ok_bind, hunchanged]
            simp [Passage.ok]

theorem telling_of_compose {p : Plan Float} {fs : List (Fragment Float)} {n : Nat}
    {c : Composition Float} (hfs : ∀ f ∈ fs, f.summary = "" ∨ Telling f.summary)
    (h : Composition.compose p fs n = .ok c) : c.summary = "" ∨ Telling c.summary := by
  rw [Composition.summary_of_compose h]
  refine telling_intercalate fun s hs => ?_
  obtain ⟨hs, hfull⟩ := List.mem_filter.1 hs
  obtain ⟨f, hf, rfl⟩ := List.mem_map.1 hs
  rcases hfs f hf with hempty | htelling
  · simp [hempty] at hfull
  · exact htelling

theorem telling_of_ungated {p : Plan Float} {o : Outcome Float} (h : ungated p = .ok o) :
    o.summary = "" ∨ Telling o.summary := by
  unfold ungated at h
  split at h
  · simp only [Except.ok.injEq] at h
    rw [← h]
    exact Photo.told_build p 0
  · simp only [bind_eq_ok_iff, mapError_eq_ok_iff, pure_eq_ok, Except.ok.injEq] at h
    obtain ⟨ds, hds, c, hc, rfl⟩ := h
    exact telling_of_compose (List.forall_mem_map.2 (told_of_drafts hds)) hc

/-- For a plan that a request comes to, with a duration up to `1e300` and no blank id on its
canvas, the gate passes every draft as it is, those that the compiler makes and those that any
generator makes, and passes what is composed of them as it is.  So the compiler answers what it
would answer without a gate: never the scene that stands in, and never that it gives up. -/
theorem compile_passes {settings : Settings Float} {r : Request Float} {p : Plan Float}
    (hp : Plan.ofRequest settings r = .ok p) (hduration : p.duration ≤ 1e300)
    (hcanvas : ∀ id ∈ p.canvas, ∃ c ∈ id.toList, Text.isBlank c = false) :
    (∀ (g : Generator) (n : Nat) (d : Draft Float), g.draft? p n = .ok (some d) →
      Unchanged d.fragment.actions) ∧
    (∀ ds, drafts p = .ok ds → (∀ d ∈ ds, Unchanged d.fragment.actions) ∧
      ∀ c, Composition.compose p (ds.map Draft.fragment) 0 = .ok c → Unchanged c.actions) ∧
    compile p = ungated p ∧
    ∀ o, compile p = .ok o →
      o.summary ≠ Outcome.safeSummary ∧ o.summary ≠ Outcome.unrecoverableSummary := by
  have h := Plan.measured_of_ofRequest hp hduration hcanvas
  refine ⟨?_, ?_, compile_eq_ungated h, ?_⟩
  · intro g n d hd
    exact unchanged_of_steady (steady_map_toValue (g.fits_of_draft? h hd))
  · intro ds hds
    refine ⟨fun d hd => ?_, fun c hc => unchanged_of_compose h hds hc⟩
    exact unchanged_of_steady (steady_map_toValue (fits_of_drafts h hds d hd))
  · intro o ho
    rw [compile_eq_ungated h] at ho
    exact ne_of_telling (telling_of_ungated ho)

/-- Snow over a canvas with a circle. -/
def snowy : Request Float where
  prompt := "snow"
  existing := [{ id := "sun", kind := "circle" }]

theorem compile_passes_snowy :
    ∃ p, Plan.ofRequest (Settings.read fun _ => none) snowy = .ok p ∧ p.duration ≤ 1e300 ∧
      (∀ id ∈ p.canvas, ∃ c ∈ id.toList, Text.isBlank c = false) ∧ compile p = ungated p := by
  have hcount : Measure.count (Features.normalize snowy.prompt).toList = .ok 1 := by rfl
  obtain ⟨f, hf⟩ : ∃ f : Features Float, Features.ofText snowy.prompt = .ok f := by
    unfold Features.ofText
    dsimp only
    rw [hcount]
    exact ⟨_, rfl⟩
  obtain ⟨p, hp, hduration, hcanvas⟩ : ∃ p : Plan Float,
      Plan.ofRequest (Settings.read fun _ => none) snowy = .ok p ∧ p.duration = 4.0 ∧
        p.canvas = ["sun"] := by
    have hseconds : Scalar.max Plan.minDuration
        (snowy.duration.getD (Settings.read fun _ => none).duration) = (4.0 : Float) := by
      decide
    unfold Plan.ofRequest
    rw [hf]
    exact ⟨_, rfl, hseconds, rfl⟩
  have hshort : p.duration ≤ 1e300 := by
    rw [hduration]
    decide +kernel
  have hnamed : ∀ id ∈ p.canvas, ∃ c ∈ id.toList, Text.isBlank c = false := by
    rw [hcanvas, List.forall_mem_singleton]
    exact ⟨'s', by decide, by decide⟩
  exact ⟨p, hp, hshort, hnamed, (compile_passes hp hshort hnamed).2.2.1⟩

end Compiler

end Storyboard
