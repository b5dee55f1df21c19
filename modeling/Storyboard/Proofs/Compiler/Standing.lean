import Storyboard.Proofs.Compiler.Failing
import Storyboard.Proofs.Composition.Standing
/-!
# Where camera and weather stand in an answer

Scenes stand at zero, figures at a share of the artboard, and the fragments that camera and weather
hang on say so.  So weather falls in the coordinates of the artboard and the camera starts from
where its element stands, in the composition of every plan and in the answer.
-/

namespace Storyboard

open Composition (Footed Contents Steadied OnArtboard StartsInPlace Layout mount freestanding_mount)

/-! ## Drafts -/

theorem Scene.root_of_builder? {a : Archetype} {make : Plan Float → Nat → Draft Float}
    (h : builder? a = some make) (p : Plan Float) (n : Nat) :
    (make p n).root = some (ref n 1) ∧
      Action.group (ref n 1) 0.0 0.0 ∈ (make p n).actions := by
  cases a <;> simp only [builder?, Option.some.injEq, reduceCtorEq] at h <;> subst h <;>
    exact ⟨rfl, List.mem_cons_self⟩

namespace Compiler

variable {p : Plan Float}

theorem footed_of_rootless {f : Fragment Float} (h : f.root = none) : Footed f := by
  intro root hroot
  simp [Fragment.root?, h] at hroot

theorem eq_of_root? {f : Fragment Float} {id root : String} (hid : f.root = some id)
    (hroot : f.root? = some root) : id = root := by
  rw [Fragment.root?, hid] at hroot
  exact Option.some.inj (Option.filter_eq_some_iff.1 hroot).1

theorem footed_scene {a : Archetype} {make : Plan Float → Nat → Draft Float}
    (h : Scene.builder? a = some make) (p : Plan Float) (n : Nat) :
    Footed (make p n).fragment := by
  obtain ⟨hid, hgroup⟩ := Scene.root_of_builder? h p n
  intro root hroot
  obtain rfl := eq_of_root? (f := (make p n).fragment) hid hroot
  refine ⟨_, List.mem_map_of_mem hgroup, 0, freestanding_of_spots spots_zero (by simp), ?_⟩
  intro origin horigin
  rw [originOf_of_no_parts (f := (make p n).fragment) (Scene.parts_of_builder? h p n),
    Except.ok.injEq] at horigin
  rw [← horigin]
  exact spots_zero

/-- A share of a finite length is finite. -/
theorem exists_toRat?_share {x c : Float} (hx : Scalar.isFinite x = true)
    (hc : Binary.Bounded (-53) c) : ∃ q, Scalar.toRat? (x * c) = some q :=
  Option.isSome_iff_exists.1 (Binary.isFinite_of_bounded
    (Binary.bounded_portion (Binary.bounded_of_isFinite hx) hc (by omega) (Int.le_refl _)))

theorem footed_figure (hwidth : Scalar.isFinite p.width = true)
    (hheight : Scalar.isFinite p.height = true) (n : Nat) :
    Footed (Rig.animated p n).fragment := by
  intro root hroot
  obtain rfl := eq_of_root? (f := (Rig.animated p n).fragment) rfl hroot
  obtain ⟨x, hx⟩ := exists_toRat?_share (c := 0.5) hwidth (by decide)
  obtain ⟨y, hy⟩ := exists_toRat?_share (c := 0.65) hheight (by decide)
  have hspots : Spots (p.width * 0.5, p.height * 0.65) (x, y) := ⟨hx, hy⟩
  refine ⟨_, List.mem_cons_self, (x, y), freestanding_of_spots hspots (by simp), ?_⟩
  intro origin horigin
  obtain rfl : ((p.width * 0.5, p.height * 0.65) : Float × Float) = origin :=
    Except.ok.inj horigin
  exact hspots

/-- The gate leaves the root of a fragment where it is. -/
theorem footed_of_gated {known : List String} {d : Draft Float} {f : Fragment Float} {whole : Bool}
    (hd : d.Grounded known 0) (hfooted : Footed d.fragment)
    (h : gated d.fragment = .ok (f, whole)) : Footed f := by
  obtain ⟨r, hr, rfl⟩ := gated_eq_ok h
  intro root hroot
  obtain ⟨a, ha, place, hfree, hspots⟩ := hfooted root hroot
  obtain ⟨b, hb, hpass⟩ := Gate.exists_mem_of_adds hr (spares_of_grounded hd) ha hfree.adds
  exact ⟨b, hb, place, Gate.freestanding_of_pass hpass hfree, hspots⟩

theorem footed_of_drafts (hwidth : Scalar.isFinite p.width = true)
    (hheight : Scalar.isFinite p.height = true) {ds : List (Draft Float)}
    (hds : drafts p = .ok ds) {fs : List (Fragment Float)} {whole : Bool}
    (hfs : gatedAll ds = .ok (fs, whole)) : ∀ f ∈ fs, Footed f := by
  intro f hf
  obtain ⟨d, hd, _, hgated⟩ := (gated_of_gatedAll hfs).2 f hf
  rcases drafts_cases hds with ⟨e, he, rfl⟩ | rfl
  · obtain rfl := List.mem_singleton.1 hd
    exact footed_of_gated (Edit.grounded_of_build he)
      (footed_of_rootless (Edit.root_of_build he)) hgated
  · refine footed_of_gated (grounded_of_wanted hd) ?_ hgated
    rcases mem_wanted hd with hd | rfl | rfl
    · obtain ⟨make, hmake, rfl⟩ := Option.map_eq_some_iff.1 hd
      exact footed_scene hmake p 0
    · exact footed_figure hwidth hheight 0
    · exact footed_of_rootless rfl

/-! ## Compositions -/

/-- The composition of what a plan wants. -/
def Composes (p : Plan Float) (fs : List (Fragment Float)) (c : Composition Float) : Prop :=
  ∃ ds whole, drafts p = .ok ds ∧ gatedAll ds = .ok (fs, whole) ∧
    Composition.compose p fs 0 = .ok c

variable {fs : List (Fragment Float)} {c : Composition Float}

theorem nodup_of_composes (h : Composes p fs c) : (addedIds c.actions).Nodup := by
  obtain ⟨ds, _, hds, hfs, hc⟩ := h
  obtain ⟨l⟩ := Composition.compose_layout hc
  obtain ⟨known, hsettled⟩ := settled_of_drafts hds hfs
  obtain ⟨ks, hks, hrise, -⟩ := rising_of_compose l hsettled
  rw [hks]
  exact Quality.nodup_map_id hrise

theorem spares_of_composes (h : Composes p fs c) : ∀ a ∈ c.actions, Gate.Spares a := by
  obtain ⟨ds, _, hds, hfs, hc⟩ := h
  obtain ⟨l⟩ := Composition.compose_layout hc
  obtain ⟨known, hsettled⟩ := settled_of_drafts hds hfs
  exact l.spares fun f hf => (hsettled f hf).steady

/-- What camera and weather hang on stands where they take it to stand. -/
theorem steadied_of_composes (hwidth : Scalar.isFinite p.width = true)
    (hheight : Scalar.isFinite p.height = true) (h : Composes p fs c) (k : Contents p fs 0 c)
    (hactions : c.actions = k.wrapping ++ k.blocks.flatten ++ k.camera ++ k.weather) :
    Steadied c.actions k.mounted.1 k.mounted.2 := by
  have hunique := nodup_of_composes h
  obtain ⟨ds, _, hds, hfs, -⟩ := h
  cases hmounted : k.mounted.1 with
  | none => exact ⟨0, Composition.spots_mount hmounted, rfl⟩
  | some id =>
      obtain ⟨a, ha, place, hfree, hspots⟩ :=
        freestanding_mount k.arranged (footed_of_drafts hwidth hheight hds hfs) hmounted
      refine ⟨place, hspots, hfree.standsAt_iff hunique ?_⟩
      rw [hactions]
      exact List.mem_append_left _ (List.mem_append_left _ ha)

theorem onArtboard_of_composes (hwidth : Scalar.isFinite p.width = true)
    (hheight : Scalar.isFinite p.height = true) (h : Composes p fs c) (k : Contents p fs 0 c)
    (hactions : c.actions = k.wrapping ++ k.blocks.flatten ++ k.camera ++ k.weather)
    (hweather : k.weather ≠ []) : ∃ group, OnArtboard c.actions k.weather group := by
  have hfalls : p.weather ≠ .none := by
    intro hnone
    simp [Contents.weather, Weather.overlay, hnone] at hweather
  refine ⟨_, Composition.onArtboard_of_steadied (nodup_of_composes h) (fun a ha => ?_)
    (steadied_of_composes hwidth hheight h k hactions) hfalls⟩
  rw [hactions]
  exact List.mem_append_right _ (List.mem_map_of_mem ha)

theorem startsInPlace_of_composes (hwidth : Scalar.isFinite p.width = true)
    (hheight : Scalar.isFinite p.height = true) (h : Composes p fs c) (k : Contents p fs 0 c)
    (hactions : c.actions = k.wrapping ++ k.blocks.flatten ++ k.camera ++ k.weather)
    (hcamera : k.camera ≠ []) :
    ∃ id place, StartsInPlace c.actions k.camera p.beats.intro.start id place := by
  have hsteadied := steadied_of_composes hwidth hheight h k hactions
  unfold Contents.camera at hcamera ⊢
  cases hmounted : k.mounted.1 with
  | none => simp [hmounted, Composition.cameraActions] at hcamera
  | some id =>
      rw [hmounted] at hcamera hsteadied
      cases hp : p.camera with
      | false => simp [Composition.cameraActions, hp] at hcamera
      | true =>
          have hmotion : Composition.cameraActions p (some id) k.mounted.2 =
              Camera.motion p id k.mounted.2 := by
            simp [Composition.cameraActions, hp]
          rw [hmotion]
          exact ⟨id, Composition.startsInPlace_of_steadied hsteadied⟩

/-! ## Answers -/

/-- As soon as something stands in what was composed, the answer is that, and everything stands
where it did. -/
theorem standsAt_answer_iff (hphoto : p.wantsPhoto = false) {o : Outcome Float}
    (ho : compile p = .ok o) :
    ∃ fs c, Composes p fs c ∧ ∀ {id₀ place₀}, StandsAt c.actions id₀ place₀ →
      ∀ id place, StandsAt o.actions id place ↔ StandsAt c.actions id place := by
  rw [compile, hphoto, if_neg Bool.false_ne_true] at ho
  obtain ⟨ds, fs, whole, c, r, hds, hfs, hc, hr, ho⟩ := compileScene_eq_ok_iff.1 ho
  have hcomposes : Composes p fs c := ⟨ds, whole, hds, hfs, hc⟩
  have hspares := spares_of_composes hcomposes
  refine ⟨fs, c, hcomposes, fun hstands id place => ?_⟩
  obtain ⟨a, ha, hadds⟩ := hstands.exists_adds
  obtain ⟨b, hb, -⟩ := Gate.exists_mem_of_adds hr hspares ha hadds
  obtain ⟨⟨hnone, -⟩, -⟩ | ⟨-, rfl⟩ := ho
  · exact absurd hnone (List.ne_nil_of_mem hb)
  exact Gate.standsAt_passFrom_iff hr hspares

/-- Whatever a plan without a photo on a finite artboard is composed of, in the composition and in
the answer: the weather stands at zero with everything that it hangs under taken together, so that
drops and flakes fall in the coordinates of the artboard; and the first keyframes of the camera
hold the place where the element stands that it drives. -/
theorem compile_stands (hphoto : p.wantsPhoto = false) (hwidth : Scalar.isFinite p.width = true)
    (hheight : Scalar.isFinite p.height = true) {o : Outcome Float} (ho : compile p = .ok o) :
    ∃ fs c, Composes p fs c ∧ ∃ k : Contents p fs 0 c,
      c.actions = k.wrapping ++ k.blocks.flatten ++ k.camera ++ k.weather ∧
      ∀ actions ∈ [c.actions, o.actions],
        (k.weather ≠ [] → ∃ group, OnArtboard actions k.weather group) ∧
        (k.camera ≠ [] →
          ∃ id place, StartsInPlace actions k.camera p.beats.intro.start id place) := by
  obtain ⟨fs, c, hcomposes, hsame⟩ := standsAt_answer_iff hphoto ho
  have hc := hcomposes
  obtain ⟨_, _, -, -, hc⟩ := hc
  obtain ⟨k, hactions, -⟩ := Composition.exists_contents hc
  refine ⟨fs, c, hcomposes, k, hactions, ?_⟩
  have hweather := onArtboard_of_composes hwidth hheight hcomposes k hactions
  have hcamera := startsInPlace_of_composes hwidth hheight hcomposes k hactions
  refine List.forall_mem_cons.2 ⟨⟨hweather, hcamera⟩, List.forall_mem_singleton.2 ⟨?_, ?_⟩⟩
  · intro hne
    obtain ⟨group, hgroup⟩ := hweather hne
    exact ⟨group, hgroup.congr (hsame ((hgroup.stands 0).2 rfl))⟩
  · intro hne
    obtain ⟨id, place, hplace⟩ := hcamera hne
    exact ⟨id, place, hplace.congr (hsame ((hplace.stands place).2 rfl))⟩

/-- A robot that spins in the rain, filmed by a camera that pans. -/
def parade : Request Float where
  prompt := "a robot spins at the existing house in the rain, pan the camera"
  artboard := some ⟨800.0, 600.0⟩
  existing := [{ id := "house" }]

theorem plan_parade {p : Plan Float}
    (hp : Plan.ofRequest (Settings.read fun _ => none) parade = .ok p) :
    p.wantsPhoto = false ∧ p.wantsCharacter = true ∧ p.camera = true ∧ p.weather = .rain := by
  obtain ⟨f, hf, rfl⟩ := map_eq_ok_iff.1 hp
  have hmentions := Features.mentions_of_ofText hf
  have hphoto : f.mentions .photo = false := by
    rw [hmentions]
    decide +kernel
  have hfigure : f.any Intent.characterKeywords = true := by
    rw [Features.any, hmentions]
    decide +kernel
  have hcamera : f.any Intent.cameraKeywords = true := by
    rw [Features.any, hmentions]
    decide +kernel
  have hrain : Intent.weathers.first? f = some .rain := by
    rw [Rules.first?]
    simp only [Features.any, hmentions]
    decide +kernel
  simp [hphoto, hfigure, hcamera, hrain, parade]

theorem compile_stands_parade : ∃ p o,
    Plan.ofRequest (Settings.read fun _ => none) parade = .ok p ∧ p.wantsPhoto = false ∧
      Scalar.isFinite p.width = true ∧ Scalar.isFinite p.height = true ∧ compile p = .ok o ∧
      ∃ fs c, ∃ k : Contents p fs 0 c,
        (∃ group, OnArtboard o.actions k.weather group) ∧
        ∃ id place, StartsInPlace o.actions k.camera p.beats.intro.start id place := by
  have hlegible : parade.Legible :=
    ⟨Text.shortRuns_of_no_digits (by decide +kernel),
      by simpa [parade] using Text.shortRuns_of_no_digits (by decide +kernel)⟩
  obtain ⟨p, hp⟩ := ofRequest_returns (Settings.read fun _ => none) hlegible
  obtain ⟨hphoto, hfigure, hcamera, hrain⟩ := plan_parade hp
  have hboard : p.board = ⟨800.0, 600.0⟩ := by
    obtain ⟨f, -, rfl⟩ := map_eq_ok_iff.1 hp
    rfl
  have hwidth : Scalar.isFinite p.width = true := by
    rw [Plan.width, hboard]
    decide
  have hheight : Scalar.isFinite p.height = true := by
    rw [Plan.height, hboard]
    decide
  obtain ⟨o, ho⟩ : ∃ o, compile p = .ok o := by
    have hreturns := compileScene_returns_of_wanted (Plan.painted_of_ofRequest hp)
      (wanted_ne_nil hp (.inr (.inl hfigure)))
    simpa [compile, hphoto] using hreturns
  obtain ⟨fs, c, ⟨ds, whole, hds, hfs, -⟩, k, -, hall⟩ := compile_stands hphoto hwidth hheight ho
  obtain ⟨hweather, hmotion⟩ := hall o.actions (by simp)
  obtain ⟨id, hid⟩ := Composition.exists_mount k.arranged
    ((rooted_of_gatedAll hfs).2 ((rooted_iff hp hds).2 (.inr hfigure)))
  have hmounted : k.mounted.1 = some id := hid
  refine ⟨p, o, hp, hphoto, hwidth, hheight, ho, fs, c, k, hweather ?_, hmotion ?_⟩
  · simp [Contents.weather, Weather.overlay, hrain]
  · simp [Contents.camera, hmounted, Composition.cameraActions, hcamera, Camera.motion]

end Compiler

end Storyboard
