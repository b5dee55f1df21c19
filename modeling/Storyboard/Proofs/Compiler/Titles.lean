import Storyboard.Proofs.Compiler.Failing
import Storyboard.Proofs.Composition.Contents
/-!
# Titles of the steps

The titles of the steps can be read off the plan.  Each thing that it wants has one step, in a fixed
order, an edit stands alone, and camera and weather have a step exactly when they move something.
-/

namespace Storyboard

/-! ## What a plan wants -/

/-- The name that the scene of an archetype goes by; characters and basic shapes have no scene. -/
def Scene.place : Archetype → String
  | .sunset => "Sunset"
  | .ocean => "Ocean"
  | .city => "City"
  | .forest => "Forest"
  | .mountain => "Mountain"
  | .desert => "Desert"
  | .space => "Space"
  | .neonStudio => "Neon Studio"
  | .meadow => "Meadow"
  | .genericScene => "Generic"
  | .character | .basic => ""

namespace Plan

variable {α : Type}

/-- The titles of what a plan wants; that of an edit when it wants nothing. -/
def partTitles (p : Plan α) : List String :=
  (if p.wantsScene then ["Scene: " ++ Scene.place p.archetype] else [])
    ++ (if p.wantsCharacter then ["Character: Rig + Motion"] else [])
    ++ (if p.wantsPath then ["Path: Curves/Blob"] else [])
    ++ (if p.wantsScene || p.wantsCharacter || p.wantsPath then [] else ["Direct Edit"])

/-- The titles of the steps that a plan without a photo comes to. -/
def stepTitles (p : Plan α) : List String :=
  p.partTitles
    ++ (if p.camera && (p.wantsScene || p.wantsCharacter) then ["Camera: Pan/Zoom"] else [])
    ++ (if p.weather = .none then [] else ["Weather: " ++ p.weather.name])

theorem ne_empty_of_mem_partTitles {p : Plan α} : ∀ title ∈ p.partTitles, title ≠ "" := by
  have hscene : "Scene: " ++ Scene.place p.archetype ≠ "" := by
    intro hempty
    have hlength := congrArg String.length hempty
    simp [String.length_append] at hlength
  unfold partTitles
  cases p.wantsScene <;> cases p.wantsCharacter <;> cases p.wantsPath <;> simp [hscene]

end Plan

/-! ## Drafts -/

theorem Scene.title_of_builder? {α : Type} [Scalar α] {a : Archetype}
    {make : Plan α → Nat → Draft α} (h : builder? a = some make) (p : Plan α) (n : Nat) :
    (make p n).title = "Scene: " ++ place a := by
  cases a <;> simp only [builder?, Option.some.injEq, reduceCtorEq] at h <;> subst h <;> rfl

theorem Edit.title_of_build {α : Type} [Scalar α] {p : Plan α} {n : Nat} {d : Draft α}
    (h : build p n = .ok d) : d.title = "Direct Edit" := by
  rcases build_cases h with hall | rfl | ⟨e, -, rfl⟩
  · simp only [forAll?, Option.ite_none_right_eq_some, Option.some.injEq] at hall
    rw [← hall.2]
    rfl
  · rfl
  · rfl

/-! ## Compositions -/

namespace Composition

variable {α : Type}

theorem titles_of_partStep {fs : List (Fragment α)} {blocks : List (List (Value α))}
    (hlength : blocks.length = fs.length) (htitles : ∀ f ∈ fs, f.title ≠ "") :
    (List.zipWith partStep fs blocks).map (·.title) = fs.map (·.title) := by
  induction fs generalizing blocks with
  | nil => rfl
  | cons f fs ih =>
      obtain ⟨hf, hfs⟩ := List.forall_mem_cons.1 htitles
      cases blocks with
      | nil => simp at hlength
      | cons block blocks =>
          have hrest : blocks.length = fs.length := by simpa using hlength
          rw [List.zipWith_cons_cons, List.map_cons, List.map_cons, ih hrest hfs, partStep,
            if_neg hf]

variable [Scalar α] {p : Plan α} {fs : List (Fragment α)} {n : Nat} {c : Composition α}

/-- Camera and weather hang on something as soon as some fragment has a root. -/
theorem Contents.isSome_mounted_iff (k : Contents p fs n c) :
    k.mounted.1.isSome = true ↔ ∃ f ∈ fs, f.root?.isSome = true := by
  have hneeds := k.needsWrapper_eq
  have hanchor := isSome_anchor_iff k.arranged
  unfold mounted
  cases hwrapped : k.wrapped with
  | true =>
      rw [hwrapped] at hneeds
      exact iff_of_true rfl (of_needsWrapper hneeds).2
  | false =>
      rw [← hanchor]
      cases k.anchor <;> simp [wrapperId?, mount]

theorem titles_of_cameraSteps (k : Contents p fs n c) :
    (cameraSteps k.wrapping k.camera).map (·.title) =
      if p.camera && k.mounted.1.isSome then ["Camera: Pan/Zoom"] else [] := by
  unfold Contents.camera cameraActions
  cases k.mounted.1 <;> cases p.camera <;> simp [cameraSteps, Camera.motion]

theorem titles_of_weatherSteps (k : Contents p fs n c) :
    (weatherSteps p k.weather).map (·.title) =
      if p.weather = .none then [] else ["Weather: " ++ p.weather.name] := by
  unfold Contents.weather Weather.overlay
  cases hfalls : p.weather <;> simp [weatherSteps, hfalls]

end Composition

/-! ## Answers -/

namespace Compiler

section

variable {α : Type} [Scalar α] {p : Plan α}

/-- A plan that wants nothing comes to an edit. -/
theorem titles_of_drafts {settings : Settings α} {r : Request α}
    (hp : Plan.ofRequest settings r = .ok p) {ds : List (Draft α)} (hds : drafts p = .ok ds) :
    ds.map (·.title) = p.partTitles := by
  by_cases hwants : p.wantsScene = true ∨ p.wantsCharacter = true ∨ p.wantsPath = true
  · obtain rfl := eq_wanted_of_drafts (wanted_ne_nil hp hwants) hds
    have hscene : (if p.wantsScene then (Scene.build? p 0).toList else []).map (·.title) =
        if p.wantsScene then ["Scene: " ++ Scene.place p.archetype] else [] := by
      cases hwants : p.wantsScene with
      | false => rfl
      | true =>
          obtain ⟨make, hmake⟩ := exists_builder hp hwants
          simp [Scene.build?, hmake, Scene.title_of_builder? hmake p 0]
    have hsome : (p.wantsScene || p.wantsCharacter || p.wantsPath) = true := by
      simpa [or_assoc] using hwants
    rw [wanted, List.map_append, List.map_append, hscene, Plan.partTitles, if_pos hsome,
      List.append_nil]
    cases p.wantsCharacter <;> cases p.wantsPath <;> rfl
  · simp only [not_or, Bool.not_eq_true] at hwants
    obtain ⟨hscene, hcharacter, hpath⟩ := hwants
    have hnone : wanted p = [] := by simp [wanted, hscene, hcharacter, hpath]
    simp only [drafts, hnone] at hds
    obtain ⟨d, hd, rfl⟩ := map_eq_ok_iff.1 hds
    simp [Plan.partTitles, hscene, hcharacter, hpath, Edit.title_of_build hd]

theorem titles_of_compose {settings : Settings α} {r : Request α}
    (hp : Plan.ofRequest settings r = .ok p) {ds : List (Draft α)} (hds : drafts p = .ok ds)
    {fs : List (Fragment α)} {whole : Bool} (hfs : gatedAll ds = .ok (fs, whole))
    {c : Composition α} (hc : Composition.compose p fs 0 = .ok c) :
    c.steps.map (·.title) = p.stepTitles := by
  obtain ⟨k, -, hsteps⟩ := Composition.exists_contents hc
  have hparts : fs.map (·.title) = p.partTitles :=
    (map_of_gatedAll (fun _ _ => rfl) hfs).trans (titles_of_drafts hp hds)
  have htitles : ∀ f ∈ fs, f.title ≠ "" := fun f hf =>
    Plan.ne_empty_of_mem_partTitles _ (hparts ▸ List.mem_map_of_mem hf)
  have hmounted : k.mounted.1.isSome = (p.wantsScene || p.wantsCharacter) := by
    rw [Bool.eq_iff_iff, k.isSome_mounted_iff, rooted_of_gatedAll hfs, rooted_iff hp hds,
      Bool.or_eq_true]
  rw [hsteps, List.map_append, List.map_append,
    Composition.titles_of_partStep (Composition.length_of_arranged k.arranged) htitles, hparts,
    Composition.titles_of_cameraSteps, Composition.titles_of_weatherSteps, hmounted]
  rfl

end

variable {settings : Settings Float} {r : Request Float}

/-- The steps of an answer to a request without a photo, which is neither a failure nor the scene
that stands in, are those that its plan asks for: a scene, a figure and a shape as far as they are
wanted, or else an edit, then camera and weather. -/
theorem titles_answer (hdone : (answer settings r).summary ≠ Outcome.failureSummary)
    (hown : (answer settings r).summary ≠ Outcome.safeSummary) :
    ∃ p, Plan.ofRequest settings r = .ok p ∧
      (p.wantsPhoto = false → (answer settings r).steps.map (·.title) = p.stepTitles) := by
  obtain ⟨p, hp, hcompile⟩ := exists_plan_of_answer hdone
  refine ⟨p, hp, fun hphoto => ?_⟩
  rw [compile, hphoto, if_neg Bool.false_ne_true] at hcompile
  obtain ⟨ds, fs, whole, c, passed, hds, hfs, hc, -, ⟨-, hsafe⟩ | ⟨-, ho⟩⟩ :=
    compileScene_eq_ok_iff.1 hcompile
  · exact absurd (summary_of_safeScene hsafe) hown
  · rw [← ho]
    exact titles_of_compose hp hds hfs hc

/-- A robot with a heart in a rainy meadow, filmed by a camera that pans. -/
def picnic : Request Float where
  prompt := "a robot and a heart in a meadow in the rain, pan the camera"

theorem titles_picnic :
    (answer (Settings.read fun _ => none) picnic).steps.map (·.title) =
      ["Scene: Meadow", "Character: Rig + Motion", "Path: Curves/Blob", "Camera: Pan/Zoom",
        "Weather: rain"] := by
  have hown : (answer (Settings.read fun _ => none) picnic).summary ≠ Outcome.failureSummary ∧
      (answer (Settings.read fun _ => none) picnic).summary ≠ Outcome.safeSummary := by
    decide +kernel
  obtain ⟨p, hp, htitles⟩ := titles_answer hown.1 hown.2
  obtain ⟨f, hf, rfl⟩ := map_eq_ok_iff.1 hp
  have hmentions := Features.mentions_of_ofText hf
  refine (htitles ?_).trans ?_
  · rw [Bool.or_eq_false_iff]
    refine ⟨?_, rfl⟩
    rw [hmentions]
    decide +kernel
  · simp only [Plan.stepTitles, Plan.partTitles, Rules.first?, Features.any, hmentions]
    decide +kernel

end Compiler

end Storyboard
