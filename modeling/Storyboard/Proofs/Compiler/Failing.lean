import Storyboard.Proofs.Compiler.Ungated
import Storyboard.Proofs.Compiler.Finite
import Storyboard.Proofs.Compiler.Steps
import Storyboard.Proofs.Composition.Composable
import Storyboard.Proofs.Draft.Legible
import Storyboard.Proofs.Gate.Answerable
import Storyboard.Proofs.Generator
import Storyboard.Proofs.Plan
/-!
# Requests that cannot be carried out

A request whose rows of digits can be read and whose radii can be squared is carried out, whatever
its elements lack and however odd its numbers are.  One exception is left: an edit that names a
placeholder so high that the weather over it would need numbers too long to be written.
-/

namespace Storyboard

open Placeholder (Readable itemRuns textRuns ceiling peak)
open Composition (Joinable Every originOf peakOf)
open Gate (Answerable)

/-! ## Choosing an element -/

/-- The radii of the circles on the canvas have squares; an unknown radius counts as zero. -/
def Squarable (elements : List (Element Float)) : Prop :=
  ∀ e ∈ elements, e.kind = "circle" → Scalar.isFinite (e.r.getD 0.0) = true →
    Scalar.isFinite (Scalar.square (e.r.getD 0.0)) = true

namespace Selection

variable {elements : List (Element Float)}

theorem area_returns {e : Element Float} (h : e.kind = "circle" →
    Scalar.isFinite (e.r.getD 0.0) = true → Scalar.isFinite (Scalar.square (e.r.getD 0.0)) = true) :
    ∃ x, area e = .ok x := by
  unfold area
  split
  · exact ⟨_, rfl⟩
  · split
    · rename_i hcircle
      dsimp only
      split
      · rename_i hlarge
        simp only [Bool.and_eq_true, Bool.not_eq_true'] at hlarge
        rw [h hcircle hlarge.1.1] at hlarge
        simp at hlarge
      · exact ⟨_, rfl⟩
    · exact ⟨_, rfl⟩

theorem measured_returns (r : Ranking) (h : Squarable elements) :
    ∃ measures, measured r elements = .ok measures := by
  induction elements with
  | nil => exact ⟨_, rfl⟩
  | cons e rest ih =>
      obtain ⟨x, hx⟩ : ∃ x, measure r e = .ok x := by
        have harea := area_returns (h e List.mem_cons_self)
        cases r <;> first | exact harea | exact ⟨_, rfl⟩
      obtain ⟨measures, hmeasures⟩ := ih fun e' he' => h e' (List.mem_cons_of_mem _ he')
      exact ⟨_, by simp [measured, hx, hmeasures]; rfl⟩

theorem pick_returns (f : Features Float) (h : Squarable elements) :
    ∃ e?, pick f elements = .ok e? := by
  obtain ⟨measures, hmeasures⟩ :=
    measured_returns (ranking f) fun e he => h e (mem_of_mem_candidates he)
  dsimp only [pick]
  rw [hmeasures]
  cases measures <;> exact ⟨_, rfl⟩

end Selection

theorem Edit.build_returns {p : Plan Float} (n : Nat) (h : Squarable p.existing) :
    ∃ d, build p n = .ok d := by
  unfold build
  split
  · exact ⟨_, rfl⟩
  · split
    · exact ⟨_, rfl⟩
    · obtain ⟨e?, he⟩ : ∃ e?, target? p = .ok e? := by
        unfold target?
        split
        · exact ⟨_, rfl⟩
        · exact Selection.pick_returns _ h
      rw [he]
      cases e? <;> exact ⟨_, rfl⟩

/-! ## Composing -/

namespace Composition

variable {α : Type} [Scalar α]

/-- A single fragment without a root is composed as long as the weather has numbers left. -/
theorem compose_singleton_returns_iff {p : Plan α} {f : Fragment α} (hroot : f.root? = none)
    (hread : Readable (itemRuns f.actions)) :
    (∃ c, compose p [f] 0 = .ok c) ↔
      ¬ (p.weather ≠ .none ∧ ceiling ≤ Weather.issued p (peakOf f)) := by
  have hwrapped : needsWrapper p [f] = .ok false := by simp [needsWrapper, hroot]
  have hhighest := Placeholder.highestItem_eq_ok_iff.2 ⟨hread, rfl⟩
  obtain ⟨s, hjoined, hissued⟩ : ∃ s : Progress α,
      joinAll none { issued := 0 } [f] = .ok s ∧ s.issued = peakOf f := by
    refine ⟨_, by simp [joinAll, join, shifted, hhighest, anchorAfter, hroot]; rfl, rfl⟩
  have hfalls : peakOf f < Weather.issued p (peakOf f) ↔ p.weather ≠ .none := by
    unfold Weather.issued
    by_cases hnone : p.weather = .none
    · simp [hnone]
    · simp only [hnone, if_false, ne_eq, not_false_eq_true, iff_true]
      omega
  constructor
  · rintro ⟨c, hc⟩ ⟨hsome, hlarge⟩
    obtain ⟨wrapped, t, hneeds, -, hjoin, hwritable, -⟩ := compose_eq_ok_iff.1 hc
    obtain rfl : false = wrapped := Except.ok.inj (hwrapped.symm.trans hneeds)
    obtain rfl : s = t := Except.ok.inj (hjoined.symm.trans hjoin)
    rw [hissued] at hwritable
    have := hwritable (hfalls.2 hsome)
    omega
  · intro h
    refine ⟨_, compose_eq_ok_iff.2 ⟨false, s, hwrapped, fun hlt => absurd hlt (lt_irrefl 0),
      hjoined, fun hlt => ?_, rfl⟩⟩
    rw [hissued] at hlt ⊢
    exact Nat.lt_of_not_le fun hle => h ⟨hfalls.1 hlt, hle⟩

end Composition

/-! ## Drafts through the gate -/

namespace Compiler

variable {p : Plan Float}

theorem carrying_answerable (p : Plan Float) : Carrying Answerable (fun _ => True) p where
  portable := Gate.portable_answerable
  passing _ _ := Gate.answerable_of_pass
  overlaid :=
    { corner := trivial
      wrapper := fun id => Gate.answerable_toValue (Action.wholeless_group (by simp))
      camera := fun id origin _ => Gate.every_answerable (Camera.wholeless_motion p id origin)
      weather := fun n parent origin _ =>
        Gate.every_answerable (Weather.wholeless_overlay p n parent origin) }
  drafts := by
    intro ds hds
    rcases drafts_cases hds with ⟨d, hd, rfl⟩ | rfl
    · exact List.forall_mem_singleton.2
        ⟨Gate.every_answerable (Edit.wholeless_of_build hd), fun _ _ => trivial⟩
    · intro d hd
      rcases mem_wanted hd with hd | rfl | rfl
      · obtain ⟨make, hmake, rfl⟩ := Option.map_eq_some_iff.1 hd
        exact ⟨Gate.every_answerable (Scene.wholeless_of_builder? hmake p 0), fun _ _ => trivial⟩
      · exact ⟨Gate.every_answerable (Rig.wholeless_animated p 0), fun _ _ => trivial⟩
      · exact ⟨Gate.every_answerable (Shape.wholeless_build p 0), fun _ _ => trivial⟩
  photo := Gate.every_answerable (Photo.wholeless_build p 0)
  safe := by
    have hbuilder : Scene.builder? .genericScene = some (Scene.generic (α := Float)) := rfl
    exact Gate.every_answerable (Scene.wholeless_of_builder? hbuilder p 0)

theorem gated_returns {f : Fragment Float} (h : Every Answerable f.actions) :
    ∃ g, gated f = .ok g := by
  obtain ⟨r, hr⟩ := Gate.passAll_returns h
  exact ⟨_, map_eq_ok_iff.2 ⟨r, hr, rfl⟩⟩

theorem gatedAll_returns {ds : List (Draft Float)}
    (h : ∀ d ∈ ds, Every Answerable d.fragment.actions) : ∃ r, gatedAll ds = .ok r := by
  induction ds with
  | nil => exact ⟨_, rfl⟩
  | cons d ds ih =>
      obtain ⟨hd, hds⟩ := List.forall_mem_cons.1 h
      obtain ⟨g, hg⟩ := gated_returns hd
      obtain ⟨r, hr⟩ := ih hds
      exact ⟨_, by rw [gatedAll, hg, hr]; rfl⟩

theorem safeScene_returns (p : Plan Float) (steps : List (PlanStep Float)) :
    ∃ o, safeScene p steps = .ok o := by
  obtain ⟨r, hr⟩ := Gate.passAll_returns (carrying_answerable p).safe
  exact ⟨_, map_eq_ok_iff.2 ⟨r, hr, rfl⟩⟩

theorem compilePhoto_returns (p : Plan Float) : ∃ o, compilePhoto p = .ok o := by
  obtain ⟨⟨f, whole⟩, hf⟩ := gated_returns (carrying_answerable p).photo
  by_cases hlost : f.actions = [] ∧ whole = false
  · obtain ⟨o, ho⟩ := safeScene_returns p [⟨f.title, f.actions⟩]
    exact ⟨o, compilePhoto_eq_ok_iff.2 ⟨f, whole, hf, .inl ⟨hlost, ho⟩⟩⟩
  · exact ⟨_, compilePhoto_eq_ok_iff.2 ⟨f, whole, hf, .inr ⟨hlost, rfl⟩⟩⟩

/-- A plan without a photo is carried out exactly when its drafts can be made and composed. -/
theorem compileScene_returns_iff {ds : List (Draft Float)} {fs : List (Fragment Float)}
    {whole : Bool} (hds : drafts p = .ok ds) (hfs : gatedAll ds = .ok (fs, whole)) :
    (∃ o, compileScene p = .ok o) ↔ ∃ c, Composition.compose p fs 0 = .ok c := by
  constructor
  · rintro ⟨o, ho⟩
    obtain ⟨ds', fs', whole', c, -, hds', hfs', hc, -⟩ := compileScene_eq_ok_iff.1 ho
    obtain rfl := Except.ok.inj (hds.symm.trans hds')
    obtain ⟨rfl, -⟩ := Prod.mk.inj (Except.ok.inj (hfs.symm.trans hfs'))
    exact ⟨c, hc⟩
  · rintro ⟨c, hc⟩
    have hcarrying := carrying_answerable p
    obtain ⟨hactions, -⟩ := Composition.every_compose hcarrying.portable hcarrying.overlaid
      (hcarrying.cargo_of_gatedAll (hcarrying.drafts ds hds) hfs) hc
    obtain ⟨r, hr⟩ := Gate.passAll_returns hactions
    by_cases hlost : r.actions = [] ∧ (whole && r.ok) = false
    · obtain ⟨o, ho⟩ := safeScene_returns p c.steps
      exact ⟨o, compileScene_eq_ok_iff.2
        ⟨ds, fs, whole, c, r, hds, hfs, hc, hr, .inl ⟨hlost, ho⟩⟩⟩
    · exact ⟨_, compileScene_eq_ok_iff.2
        ⟨ds, fs, whole, c, r, hds, hfs, hc, hr, .inr ⟨hlost, rfl⟩⟩⟩

/-! ## Numbers of a draft that passed -/

/-- A draft that passed has no placeholder that it did not have before. -/
theorem mem_itemRuns_of_gated {f g : Fragment Float} {whole : Bool}
    (h : gated f = .ok (g, whole)) {digits : List Char} (hdigits : digits ∈ itemRuns g.actions) :
    digits ∈ itemRuns f.actions := by
  obtain ⟨r, hr, rfl⟩ := gated_eq_ok h
  obtain ⟨b, hb, hdigits⟩ := Composition.exists_mem_of_mem_itemRuns hdigits
  obtain ⟨a, ha, hpass⟩ := Gate.exists_pass_of_mem hr b hb
  exact Composition.mem_itemRuns ha (Gate.mem_runs_of_pass hpass hdigits)

/-- Generators other than an edit number few elements. -/
theorem issued_of_wanted {d : Draft Float} (h : d ∈ wanted p) : d.issued ≤ 15 := by
  rcases mem_wanted h with hd | rfl | rfl
  · obtain ⟨make, hmake, rfl⟩ := Option.map_eq_some_iff.1 hd
    cases harchetype : p.archetype <;>
      simp only [harchetype, Scene.builder?, Option.some.injEq, reduceCtorEq] at hmake <;>
      subst hmake <;>
      simp [Scene.sunset, Scene.ocean, Scene.city, Scene.forest, Scene.mountain, Scene.desert,
        Scene.space, Scene.neonStudio, Scene.meadow, Scene.generic, Scene.inGroup]
  · cases hbuild : Rig.buildOf p <;>
      simp [Rig.animated, Rig.draft, hbuild, Rig.partNames]
  · simp [Shape.build]

theorem moved_of_wanted (hp : p.Painted) {d : Draft Float} (h : d ∈ wanted p) :
    ∃ e, d.Moved 0 e := by
  rcases mem_wanted h with hd | rfl | rfl
  · obtain ⟨make, hmake, rfl⟩ := Option.map_eq_some_iff.1 hd
    exact ⟨_, Scene.moved_of_builder? hmake hp 0⟩
  · exact ⟨_, Rig.moved_animated hp 0⟩
  · exact ⟨_, Shape.moved_build hp 0⟩

theorem placed_of_wanted {d : Draft Float} (h : d ∈ wanted p) :
    ∃ origin, originOf d.fragment = .ok origin := by
  rcases mem_wanted h with hd | rfl | rfl
  · obtain ⟨make, hmake, rfl⟩ := Option.map_eq_some_iff.1 hd
    exact ⟨_, originOf_of_no_parts (Scene.parts_of_builder? hmake p 0)⟩
  · exact ⟨_, rfl⟩
  · exact ⟨_, originOf_of_no_parts rfl⟩

/-- What passed of a draft of a plan can be joined, and its numbers are small. -/
theorem joinable_of_wanted (hp : p.Painted) {d : Draft Float} (hd : d ∈ wanted p)
    {g : Fragment Float} {whole : Bool} (hg : gated d.fragment = .ok (g, whole)) :
    Joinable g ∧ peakOf g ≤ 15 := by
  obtain ⟨e, hmoved⟩ := moved_of_wanted hp hd
  have hfew := issued_of_wanted hd
  have hceiling := Placeholder.thousand_le_ceiling
  have hnumbers : ∀ ds ∈ itemRuns g.actions, ∃ k, k ≤ 15 ∧ ds = Decimal.digits k := by
    intro ds hds
    obtain ⟨k, -, hk, rfl⟩ :=
      (Generator.moves_fragment hmoved).within ds (mem_itemRuns_of_gated hg hds)
    exact ⟨k, by omega, rfl⟩
  have hreadable : Readable (itemRuns g.actions) := by
    intro ds hds
    obtain ⟨k, hk, rfl⟩ := hnumbers ds hds
    exact Placeholder.length_digits_le (by omega)
  have hsettled := settled_of_gated (grounded_of_wanted hd) hg
  have hcarrying := carrying_answerable p
  have hdrafts := drafts_eq_wanted (List.ne_nil_of_mem hd)
  refine ⟨⟨hreadable, fun a ha => ?_, fun root hroot => ?_, ?_⟩, ?_⟩
  · have hcargo := hcarrying.cargo_of_gated (hcarrying.drafts _ hdrafts d hd) hg
    exact (hcargo.actions a ha).searchable
  · -- The root is added, so its number is one of those of the actions.
    obtain ⟨a, ha, hadded⟩ := List.mem_filterMap.1 (hsettled.rooted root hroot)
    have hsub : ∀ ds ∈ textRuns root, ds ∈ itemRuns g.actions := fun ds hds =>
      Composition.mem_itemRuns ha (Composition.mem_runs_of_addedId? hadded hds)
    exact ⟨fun ds hds => hreadable ds (hsub ds hds),
      Placeholder.peak_le_iff.2 fun ds hds => Placeholder.valueOf_le_peak (hsub ds hds)⟩
  · obtain ⟨r, -, rfl⟩ := gated_eq_ok hg
    exact placed_of_wanted hd
  · refine Placeholder.peak_le_iff.2 fun ds hds => ?_
    obtain ⟨k, hk, rfl⟩ := hnumbers ds hds
    rwa [Placeholder.valueOf_digits]

theorem length_of_gatedAll {ds : List (Draft Float)} {fs : List (Fragment Float)} {whole : Bool}
    (h : gatedAll ds = .ok (fs, whole)) : fs.length = ds.length := by
  have hmap := congrArg List.length (map_of_gatedAll (g := (·.title)) (fun _ _ => rfl) h)
  rwa [List.length_map, List.length_map] at hmap

theorem length_wanted_le (p : Plan Float) : (wanted p).length ≤ 3 := by
  have hscene : (if p.wantsScene then (Scene.build? p 0).toList else []).length ≤ 1 := by
    split
    · cases Scene.build? p 0 <;> simp
    · simp
  have hfigure : (if p.wantsCharacter then [Rig.animated p 0] else []).length ≤ 1 := by
    split <;> simp
  have hshape : (if p.wantsPath then [Shape.build p 0] else []).length ≤ 1 := by
    split <;> simp
  rw [wanted, List.length_append, List.length_append]
  omega

/-- What a plan wants besides an edit is always composed. -/
theorem compose_wanted_returns (hp : p.Painted) {fs : List (Fragment Float)} {whole : Bool}
    (hfs : gatedAll (wanted p) = .ok (fs, whole)) :
    ∃ c, Composition.compose p fs 0 = .ok c := by
  have hjoinable : ∀ f ∈ fs, Joinable f ∧ peakOf f ≤ 15 := by
    intro f hf
    obtain ⟨d, hd, _, hgated⟩ := (gated_of_gatedAll hfs).2 f hf
    exact joinable_of_wanted hp hd hgated
  have hlast := Composition.lastNumber_le (n := 0 + 1) fun f hf => (hjoinable f hf).2
  have hfew : fs.length ≤ 3 := length_of_gatedAll hfs ▸ length_wanted_le p
  have hceiling := Placeholder.thousand_le_ceiling
  exact Composition.compose_returns p (fun f hf => (hjoinable f hf).1) (by omega)

/-! ## What stands in the way -/

/-- The plan comes to an edit under weather, and the edit holds a placeholder so high that the ones
after it, for the weather, cannot be written. -/
def Exhausting (p : Plan Float) : Prop :=
  p.wantsPhoto = false ∧ wanted p = [] ∧ p.weather ≠ .none ∧
    ∃ d f whole, Edit.build p 0 = .ok d ∧ gated d.fragment = .ok (f, whole) ∧
      ceiling ≤ Weather.issued p (peakOf f)

theorem compileScene_returns_of_wanted (hp : p.Painted) (hwanted : wanted p ≠ []) :
    ∃ o, compileScene p = .ok o := by
  have hds := drafts_eq_wanted hwanted
  have hcarrying := carrying_answerable p
  obtain ⟨⟨fs, whole⟩, hfs⟩ :=
    gatedAll_returns fun d hd => (hcarrying.drafts _ hds d hd).actions
  exact (compileScene_returns_iff hds hfs).2 (compose_wanted_returns hp hfs)

/-- An edit is carried out unless there are no numbers left for the weather. -/
theorem compileScene_returns_iff_of_edit (hp : p.Legible)
    (hcount : p.features.count ≤ Measure.maxCount) (hsquares : Squarable p.existing)
    (hwanted : wanted p = []) :
    (∃ o, compileScene p = .ok o) ↔
      ¬ (p.weather ≠ .none ∧ ∃ d f whole, Edit.build p 0 = .ok d ∧
        gated d.fragment = .ok (f, whole) ∧ ceiling ≤ Weather.issued p (peakOf f)) := by
  obtain ⟨d, hd⟩ := Edit.build_returns 0 hsquares
  have hds : drafts p = .ok [d] := by
    simp only [drafts, hwanted, hd, map_ok]
  have hcarrying := carrying_answerable p
  obtain ⟨⟨f, whole⟩, hf⟩ := gated_returns (hcarrying.drafts _ hds d (by simp)).actions
  have hfs : gatedAll [d] = .ok ([f], whole) := gatedAll_singleton_eq_ok_iff.2 ⟨f, hf, rfl⟩
  have hroot : f.root? = none := by
    obtain ⟨r, -, rfl⟩ := gated_eq_ok hf
    simp [Fragment.root?, Draft.fragment, Edit.root_of_build hd]
  have hread : Readable (itemRuns f.actions) := by
    have hmax : Measure.maxCount = 12 := rfl
    have hceiling := Placeholder.thousand_le_ceiling
    have hlegible := Edit.legible_of_build hp (n := 0) (by omega) hd
    exact fun digits hdigits => hlegible.readable digits (mem_itemRuns_of_gated hf hdigits)
  rw [compileScene_returns_iff hds hfs, Composition.compose_singleton_returns_iff hroot hread]
  refine not_congr (and_congr_right fun _ => ⟨fun h => ⟨d, f, whole, hd, hf, h⟩, ?_⟩)
  rintro ⟨d', f', whole', hd', hf', h⟩
  obtain rfl : d = d' := Except.ok.inj (hd.symm.trans hd')
  obtain ⟨rfl, -⟩ := Prod.mk.inj (Except.ok.inj (hf.symm.trans hf'))
  exact h

/-- A legible plan is carried out unless it is exhausting. -/
theorem compile_returns_iff (hpainted : p.Painted) (hp : p.Legible)
    (hcount : p.features.count ≤ Measure.maxCount) (hsquares : Squarable p.existing) :
    (∃ o, compile p = .ok o) ↔ ¬ Exhausting p := by
  unfold Exhausting
  cases hphoto : p.wantsPhoto with
  | true =>
      simp only [compile, hphoto, if_true, compilePhoto_returns, Bool.true_eq_false, false_and,
        not_false_eq_true]
  | false =>
      simp only [compile, hphoto, Bool.false_eq_true, if_false, true_and]
      by_cases hwanted : wanted p = []
      · rw [compileScene_returns_iff_of_edit hp hcount hsquares hwanted]
        simp only [hwanted, true_and]
      · simp only [compileScene_returns_of_wanted hpainted hwanted, hwanted, false_and,
          not_false_eq_true]

/-! ## What an answer says -/

theorem safeSummary_ne_failureSummary : Outcome.safeSummary ≠ Outcome.failureSummary := by
  decide

theorem told_of_gatedAll {ds : List (Draft Float)} (hds : drafts p = .ok ds)
    {fs : List (Fragment Float)} {whole : Bool} (hfs : gatedAll ds = .ok (fs, whole)) :
    ∀ f ∈ fs, f.summary = "" ∨ Telling f.summary := by
  intro f hf
  obtain ⟨d, hd, _, hgated⟩ := (gated_of_gatedAll hfs).2 f hf
  obtain ⟨r, -, rfl⟩ := gated_eq_ok hgated
  exact told_of_drafts hds d hd

/-- An answer that was made never says that the request could not be carried out. -/
theorem summary_of_compile {o : Outcome Float} (h : compile p = .ok o) :
    o.summary ≠ Outcome.failureSummary := by
  unfold compile at h
  split at h
  · obtain ⟨f, whole, hf, ⟨-, hsafe⟩ | ⟨-, rfl⟩⟩ := compilePhoto_eq_ok_iff.1 h
    · rw [summary_of_safeScene hsafe]
      exact safeSummary_ne_failureSummary
    · obtain ⟨r, -, rfl⟩ := gated_eq_ok hf
      exact ne_failure_of_telling (Photo.told_build p 0)
  · obtain ⟨ds, fs, whole, c, r, hds, hfs, hc, -, ⟨-, hsafe⟩ | ⟨-, rfl⟩⟩ :=
      compileScene_eq_ok_iff.1 h
    · rw [summary_of_safeScene hsafe]
      exact safeSummary_ne_failureSummary
    · exact ne_failure_of_telling (telling_of_compose (told_of_gatedAll hds hfs) hc)

theorem ofRequest_returns (settings : Settings Float) {r : Request Float} (hr : r.Legible) :
    ∃ p, Plan.ofRequest settings r = .ok p :=
  Plan.ofRequest_returns settings hr.prompt

/-- A legible request whose radii can be squared is carried out unless its plan is exhausting. -/
theorem attempt_returns_iff {settings : Settings Float} {r : Request Float} {p : Plan Float}
    (hr : r.Legible) (hsquares : Squarable r.existing)
    (hp : Plan.ofRequest settings r = .ok p) :
    (∃ o, attempt settings r = .ok o) ↔ ¬ Exhausting p := by
  rw [attempt, hp, ok_bind]
  have hlegible := Plan.legible_of_ofRequest hr hp
  have hpainted := Plan.painted_of_ofRequest hp
  obtain ⟨f, hf, rfl⟩ := map_eq_ok_iff.1 hp
  exact compile_returns_iff hpainted hlegible (Features.count_range hf).2 hsquares

theorem summary_of_answer_iff {settings : Settings Float} {r : Request Float} :
    (answer settings r).summary = Outcome.failureSummary ↔ ¬ ∃ o, attempt settings r = .ok o := by
  unfold answer
  cases hattempt : attempt settings r with
  | ok o =>
      obtain ⟨p, -, ho⟩ := bind_eq_ok_iff.1 hattempt
      simp [summary_of_compile ho]
  | error f => simp [Outcome.failure]

/-- An answer that does not say so comes from a plan. -/
theorem exists_plan_of_answer {settings : Settings Float} {r : Request Float}
    (hdone : (answer settings r).summary ≠ Outcome.failureSummary) :
    ∃ p, Plan.ofRequest settings r = .ok p ∧ compile p = .ok (answer settings r) := by
  unfold answer at *
  split
  · rename_i o ho
    exact bind_eq_ok_iff.1 ho
  · rename_i e he
    rw [he] at hdone
    exact absurd rfl hdone

/-- A request that can be read, whose rows of digits are short and whose radii can be squared, is
carried out unless its plan is exhausting.  The answer says that it could not be carried out in
that case, and in no other. -/
theorem generate_fails_iff (settings : Settings Float) {value : Value Float}
    {r : Request Float} (hvalue : Request.ofValue value = .ok r) (hr : r.Legible)
    (hsquares : Squarable r.existing) :
    ∃ p, Plan.ofRequest settings r = .ok p ∧
      ((∃ o, attempt settings r = .ok o) ↔ ¬ Exhausting p) ∧
      ((generate settings value).summary = Outcome.failureSummary ↔ Exhausting p) := by
  obtain ⟨p, hp⟩ := ofRequest_returns settings hr
  have hreturns := attempt_returns_iff hr hsquares hp
  refine ⟨p, hp, hreturns, ?_⟩
  rw [generate, hvalue]
  dsimp only
  rw [summary_of_answer_iff, hreturns, not_not]

/-- A box that is to spin. -/
def calm : Request Float where
  prompt := "spin the box"
  existing := [{ id := "box" }]

/-- The box as the editor sends it. -/
def calmValue : Value Float := .object [
  ("userRequest", .text calm.prompt),
  ("existingElements", .list [.object [("id", .text "box")]])]

theorem generate_fails_iff_calm : Request.ofValue calmValue = .ok calm ∧ calm.Legible ∧
    Squarable calm.existing ∧
      (generate (Settings.read fun _ => none) calmValue).summary ≠ Outcome.failureSummary := by
  have hvalue : Request.ofValue calmValue = .ok calm := by rfl
  have hlegible : calm.Legible := by
    have hshort : ∀ s ∈ [calm.prompt, "box"], Text.ShortRuns s.toList := by
      intro s hs
      refine Text.shortRuns_of_no_digits ?_
      revert s
      decide +kernel
    exact ⟨hshort _ (by simp), by simpa [calm] using hshort "box" (by simp)⟩
  have hsquares : Squarable calm.existing := by
    simp [Squarable, calm]
  refine ⟨hvalue, hlegible, hsquares, ?_⟩
  obtain ⟨p, hp, -, hfails⟩ :=
    generate_fails_iff (Settings.read fun _ => none) hvalue hlegible hsquares
  rw [Ne, hfails]
  rintro ⟨-, -, hweather, -⟩
  refine hweather ?_
  obtain ⟨f, hf, rfl⟩ := map_eq_ok_iff.1 hp
  have hmentions := Features.mentions_of_ofText hf
  show (Intent.weathers.first? f).getD .none = .none
  rw [Rules.first?]
  simp only [Features.any, hmentions]
  decide +kernel

/-- An edit of a box that is named by the highest number, under rain. -/
def drowned : Request Float where
  prompt := "spin the existing box in the rain"
  selected := some { id := Placeholder.id (ceiling - 1) }
  existing := [{ id := Placeholder.id (ceiling - 1) }]

def drownedValue : Value Float := .object [
  ("userRequest", .text drowned.prompt),
  ("elementToAnimate", .object [("id", .text (Placeholder.id (ceiling - 1)))]),
  ("existingElements", .list [.object [("id", .text (Placeholder.id (ceiling - 1)))]])]

theorem ofValue_drowned : Request.ofValue drownedValue = .ok drowned := by
  unfold drownedValue drowned
  generalize Placeholder.id (ceiling - 1) = id
  rfl

/-- The plan of the drowned request is an edit that spins the box. -/
theorem plan_drowned {p : Plan Float}
    (hp : Plan.ofRequest (Settings.read fun _ => none) drowned = .ok p) :
    p.wantsPhoto = false ∧ wanted p = [] ∧ p.weather = .rain ∧ p.wantsCreate = false ∧
      p.mentions .all = false ∧ p.mentions .spin = true ∧ p.selected = drowned.selected := by
  obtain ⟨f, hf, rfl⟩ := map_eq_ok_iff.1 hp
  have hmentions := Features.mentions_of_ofText hf
  have hphoto : f.any [.photo, .animate, .kenBurns, .parallax] = false := by
    rw [Features.any, hmentions]
    decide +kernel
  have hscene : f.mentions .existing = true := by
    rw [hmentions]
    decide +kernel
  have hfigure : f.any (.wavePath :: Intent.characterKeywords ++ Intent.pathKeywords) = false := by
    rw [Features.any, hmentions]
    decide +kernel
  have hrain : Intent.weathers.first? f = some .rain := by
    rw [Rules.first?]
    simp only [Features.any, hmentions]
    decide +kernel
  have hcreate : f.any (.all :: Intent.createKeywords) = false := by
    rw [Features.any, hmentions]
    decide +kernel
  have hspin : f.mentions .spin = true := by
    rw [hmentions]
    decide +kernel
  simp only [Features.any, List.any_cons, List.any_append, List.cons_append,
    Bool.or_eq_false_iff] at hphoto hfigure hcreate
  simp [wanted, Plan.mentions, Features.any, hphoto, hscene, hfigure, hrain, hcreate, hspin,
    drowned]

theorem exhausting_drowned {p : Plan Float}
    (hp : Plan.ofRequest (Settings.read fun _ => none) drowned = .ok p) : Exhausting p := by
  obtain ⟨hphoto, hwanted, hrain, hcreate, hall, hspin, hselected⟩ := plan_drowned hp
  have hne : Placeholder.id (ceiling - 1) ≠ "" := Placeholder.id_ne_empty _
  obtain ⟨e, he, hid⟩ : ∃ e, p.selected = some e ∧ e.id = Placeholder.id (ceiling - 1) :=
    ⟨_, hselected, rfl⟩
  have hbuild : Edit.build p 0 = .ok (Edit.forOne p 0 e) := by
    simp [Edit.build, hcreate, Edit.forAll?, hall, Edit.target?, he, hid, hne]
  have hds : drafts p = .ok [Edit.forOne p 0 e] := by
    simp only [drafts, hwanted, hbuild, map_ok]
  obtain ⟨⟨f, whole⟩, hf⟩ :=
    gated_returns ((carrying_answerable p).drafts _ hds _ (List.mem_singleton.2 rfl)).actions
  refine ⟨hphoto, hwanted, by simp [hrain], _, f, whole, hbuild, hf, ?_⟩
  -- The keyframe that spins the box passes, and names the box.
  have hkey : Action.key e.id "rotation" 0.0 0.0 ∈ (Edit.forOne p 0 e).actions := by
    refine List.mem_append_right _ (List.mem_append_right _ ?_)
    have hspins : (Animation.ofFeatures p.features).spin = true := hspin
    simp [Animation.keyframes, hspins]
  have hsteady : Gate.Steady (Action.key e.id "rotation" (0.0 : Float) 0.0).toValue :=
    Action.steady_of_fits (Action.fits_key.2
      ⟨hid ▸ named_id _, by decide, ⟨by decide, by decide⟩, inPlace_real (by decide)⟩)
  have hpeak : ceiling - 1 ≤ peakOf f := by
    obtain ⟨r, hr, rfl⟩ := gated_eq_ok hf
    have hmem := Gate.mem_of_passFrom hr (List.mem_map_of_mem hkey) hsteady
    have hdigits : Decimal.digits (ceiling - 1) ∈
        Placeholder.runs (Action.key e.id "rotation" (0.0 : Float) 0.0).toValue := by
      rw [hid]
      simp [Action.key, Action.frame, Action.toValue, Action.wire, Action.keyframePayload,
        Placeholder.runs, Placeholder.fieldRuns]
    have := Placeholder.valueOf_le_peak (Composition.mem_itemRuns hmem hdigits)
    rwa [Placeholder.valueOf_digits] at this
  have hissued : Weather.issued p (peakOf f) = peakOf f + 1 + 16 := by
    simp [Weather.issued, hrain, Weather.particles]
  omega

theorem generate_drowned : Request.ofValue drownedValue = .ok drowned ∧ drowned.Legible ∧
    Squarable drowned.existing ∧
      (generate (Settings.read fun _ => none) drownedValue).summary = Outcome.failureSummary := by
  have hpos : ceiling - 1 < ceiling := by
    have := Placeholder.thousand_le_ceiling
    omega
  have hlegible : drowned.Legible := by
    refine ⟨?_, ?_⟩
    · exact Text.shortRuns_of_no_digits (by decide +kernel)
    · have hid := Placeholder.shortRuns_id hpos
      simpa [drowned] using hid
  have hsquares : Squarable drowned.existing := by
    simp [Squarable, drowned]
  refine ⟨ofValue_drowned, hlegible, hsquares, ?_⟩
  obtain ⟨p, hp⟩ := ofRequest_returns (Settings.read fun _ => none) hlegible
  rw [generate, ofValue_drowned]
  dsimp only
  rw [summary_of_answer_iff, attempt_returns_iff hlegible hsquares hp, not_not]
  exact exhausting_drowned hp

end Compiler

end Storyboard
