import Storyboard.Proofs.Compiler.Standing
/-!
# Answers that hold nothing

An answer is empty for one reason only: the prompt means an element of the canvas and asks for
nothing to be changed about it.  When the gate drops all that a plan comes to, a simple scene stands
in, unless weather is laid over it; the weather always gets through.
-/

namespace Storyboard

open Gate (Steady)

/-! ## Edits -/

theorem Edit.notes_of_repaint {α : Type} {f : Features α} (h : (repaint f).1 = []) :
    (repaint f).2 = [] := by
  unfold repaint at h ⊢
  split
  · split
    · simp_all
    · rfl
  · rfl

variable {α : Type} [Scalar α]

namespace Edit

variable {p : Plan α} {n : Nat}

theorem notes_of_change {e : Element α} (h : (change p e).1 = []) : (change p e).2 = [] := by
  obtain ⟨hupdates, hframes⟩ := List.append_eq_nil_iff.1 h
  dsimp only [change]
  rw [hupdates, hframes]
  rfl

/-- What is said when there is nothing to change. -/
theorem summary_of_forOne {e : Element α} (h : (forOne p n e).actions = []) :
    (forOne p n e).summary = "Nothing to change on the selected element." := by
  have hall : (repaint p.features).1 ++ (change p e).1 = [] := h
  obtain ⟨hpainted, hchanged⟩ := List.append_eq_nil_iff.1 hall
  show " ".intercalate ((repaint p.features).2 ++ (change p e).2 ++
    if ((repaint p.features).1 ++ (change p e).1).isEmpty then _ else _) = _
  rw [notes_of_repaint hpainted, notes_of_change hchanged, hall]
  rfl

/-- An edit without actions is that of an element that is meant. -/
theorem eq_forOne_of_build {d : Draft α} (hcount : 1 ≤ p.features.count)
    (h : build p n = .ok d) (hnone : d.actions = []) :
    p.wantsCreate = false ∧
      ∃ e, target? p = .ok (some e) ∧ e.id ≠ "" ∧ d = forOne p n e := by
  have hnew : d ≠ forNew p n := by
    rintro rfl
    obtain ⟨-, hcreated⟩ := List.append_eq_nil_iff.1 hnone
    have hfirst := List.flatMap_eq_nil_iff.1 hcreated 0 (List.mem_range.2 hcount)
    simp [freshAnimated] at hfirst
  unfold build at h
  split at h
  · exact absurd (Except.ok.inj h).symm hnew
  · rename_i hcreate
    refine ⟨by simpa using hcreate, ?_⟩
    split at h
    · rename_i d' hall
      obtain rfl := Except.ok.inj h
      simp only [forAll?, Option.ite_none_right_eq_some, Option.some.injEq, Bool.and_eq_true]
        at hall
      obtain ⟨⟨-, hupdated⟩, rfl⟩ := hall
      obtain ⟨-, hupdatedNil⟩ := List.append_eq_nil_iff.1 hnone
      rw [hupdatedNil] at hupdated
      cases hupdated
    · obtain ⟨target, htarget, h⟩ := bind_eq_ok_iff.1 h
      cases target with
      | none => exact absurd (Except.ok.inj h).symm hnew
      | some e =>
          dsimp only at h
          split at h
          · exact absurd (Except.ok.inj h).symm hnew
          · rename_i hid
            exact ⟨e, htarget, hid, (Except.ok.inj h).symm⟩

end Edit

/-- The plan comes to an edit of an element that is meant, with nothing to change about it. -/
structure Plan.Idle (p : Plan Float) : Prop where
  photo : p.wantsPhoto = false
  scene : p.wantsScene = false
  character : p.wantsCharacter = false
  path : p.wantsPath = false
  create : p.wantsCreate = false
  weather : p.weather = .none
  edit : ∃ e, Edit.target? p = .ok (some e) ∧ e.id ≠ "" ∧
    Edit.build p 0 = .ok (Edit.forOne p 0 e) ∧ (Edit.forOne p 0 e).actions = []

/-! ## Compositions -/

theorem Weather.exists_added {p : Plan Float} (h : p.weather ≠ .none) (n : Nat)
    (parent : Option String) (origin : Float × Float) :
    ∃ a ∈ overlay p n parent origin, ∃ id, a.added? = some id := by
  unfold overlay
  cases hfalls : p.weather with
  | none => exact absurd hfalls h
  | rain => exact ⟨_, List.mem_cons_self, _, rfl⟩
  | snow => exact ⟨_, List.mem_cons_self, _, rfl⟩

namespace Composition

variable {fs : List (Fragment Float)}

theorem moved_eq_nil_iff {k : Nat} {as : List (Value Float)} : moved k as = [] ↔ as = [] := by
  unfold moved
  split
  · rfl
  · rw [Placeholder.raisedItems_eq_map, List.map_eq_nil_iff]

theorem emitted_eq_nil_iff {wrapper : Option String} {anchored : Bool} {k : Nat}
    {f : Fragment Float} : emitted wrapper anchored k f = [] ↔ f.actions = [] := by
  unfold emitted
  split
  · rw [reparent, List.map_eq_nil_iff, moved_eq_nil_iff]
  · exact moved_eq_nil_iff

theorem emittedAll_eq_nil_iff {wrapper : Option String} {anchored : Bool} {k : Nat} :
    emittedAll wrapper anchored k fs = [] ↔ ∀ f ∈ fs, f.actions = [] := by
  induction fs generalizing k anchored with
  | nil => simp [emittedAll]
  | cons f fs ih =>
      rw [emittedAll, List.append_eq_nil_iff, emitted_eq_nil_iff, ih, List.forall_mem_cons]

theorem rootless_of_empty {f : Fragment Float} (h : Rooted f) (hempty : f.actions = []) :
    f.root? = none := by
  refine Option.eq_none_iff_forall_ne_some.2 fun root hroot => ?_
  have hmem := h root hroot
  rw [hempty] at hmem
  cases hmem

theorem shifted_of_empty {k highest : Nat} {f : Fragment Float} {block : List (Value Float)}
    (h : Shifted k f block highest) (hempty : f.actions = []) : block = [] ∧ highest = 0 := by
  obtain ⟨hblock, hhighest⟩ := h
  rw [hempty] at hblock hhighest
  refine ⟨?_, (Except.ok.inj hhighest).symm⟩
  unfold Placeholder.renumber at hblock
  split at hblock
  · exact (Value.list.inj (Except.ok.inj hblock)).symm
  · exact Value.list.inj (Placeholder.shiftAll_eq_ok_iff.1 hblock).2

theorem arranged_of_empty {wrapper : Option String} {k last : Nat}
    {anchor : Option (String × (Float × Float))} {blocks : List (List (Value Float))}
    (h : Arranged wrapper k fs anchor blocks last)
    (hfs : ∀ f ∈ fs, f.actions = [] ∧ f.root? = none) :
    blocks.flatten = [] ∧ last = k := by
  induction h with
  | nil => exact ⟨rfl, rfl⟩
  | rootless _ shifted _ ih =>
      obtain ⟨hf, hfs⟩ := List.forall_mem_cons.1 hfs
      obtain ⟨rfl, rfl⟩ := shifted_of_empty shifted hf.1
      obtain ⟨hblocks, hlast⟩ := ih hfs
      exact ⟨by rw [List.flatten_cons, hblocks, List.append_nil], hlast⟩
  | anchor root =>
      rw [(List.forall_mem_cons.1 hfs).1.2] at root
      cases root

/-- Without a root, there is neither a wrapper nor a camera, and the weather hangs on nothing. -/
theorem exists_of_rootless {p : Plan Float} {c : Composition Float} (hc : compose p fs 0 = .ok c)
    (hfs : ∀ f ∈ fs, f.root? = none) :
    ∃ anchor blocks last, Arranged none 0 fs anchor blocks last ∧
      c.actions =
        blocks.flatten ++ (Weather.overlay p last none (0.0, 0.0)).map Action.toValue := by
  obtain ⟨k, hactions, -⟩ := exists_contents hc
  have hrootless : ¬ ∃ f ∈ fs, f.root?.isSome = true := by
    rintro ⟨f, hf, hroot⟩
    rw [hfs f hf] at hroot
    cases hroot
  have hwrapped : k.wrapped = false := by
    rw [← Bool.not_eq_true]
    exact fun hwrapped => hrootless (of_needsWrapper (hwrapped ▸ k.needsWrapper_eq)).2
  have harranged := k.arranged
  rw [hwrapped] at harranged
  have hanchor : k.anchor = none := by
    rw [← Option.not_isSome_iff_eq_none, isSome_anchor_iff harranged]
    exact hrootless
  have hmounted : k.mounted = (none, (0.0, 0.0)) := by
    rw [Contents.mounted, hwrapped, hanchor]
    rfl
  have hwrapping : k.wrapping = [] := by
    rw [Contents.wrapping, hwrapped]
    rfl
  have hcamera : k.camera = [] := by
    rw [Contents.camera, hmounted]
    rfl
  refine ⟨_, _, _, harranged, ?_⟩
  rw [hactions, hwrapping, hcamera, Contents.weather, hmounted, List.nil_append, List.append_nil]

/-- Of fragments without actions, nothing is composed but the weather. -/
theorem actions_of_empty {p : Plan Float} {c : Composition Float} (hc : compose p fs 0 = .ok c)
    (hfs : ∀ f ∈ fs, f.actions = [] ∧ f.root? = none) :
    c.actions = (Weather.overlay p 0 none (0.0, 0.0)).map Action.toValue := by
  obtain ⟨_, _, _, harranged, hactions⟩ := exists_of_rootless hc fun f hf => (hfs f hf).2
  obtain ⟨hblocks, rfl⟩ := arranged_of_empty harranged hfs
  rw [hactions, hblocks, List.nil_append]

/-- Something gets through the gate as soon as a fragment has actions or there is weather. -/
theorem Layout.empty_of_passed {p : Plan Float} {c : Composition Float} (l : Layout p fs 0 c)
    (hsteady : ∀ f ∈ fs, ∀ a ∈ f.actions, Steady a) {r : Passage Float}
    (hr : Gate.passAll c.actions = .ok r) (hnone : r.actions = []) :
    (∀ f ∈ fs, f.actions = []) ∧ p.weather = .none := by
  have hdropped : ∀ b, b ∉ r.actions := by simp [hnone]
  constructor
  · have hemitted :
        emittedAll (wrapperId? l.wrapped 0) false (firstNumber l.wrapped 0) fs = [] := by
      refine List.eq_nil_iff_forall_not_mem.2 fun a ha => ?_
      have hmem : a ∈ c.actions := by
        rw [l.actions_eq]
        exact List.mem_append_left _ (List.mem_append_left _ (List.mem_append_right _ ha))
      have hpass : Steady a := portable_steady.every_emittedAll hsteady a ha
      exact hdropped a (Gate.mem_of_passFrom hr hmem hpass)
    exact emittedAll_eq_nil_iff.1 hemitted
  · by_contra hfalls
    obtain ⟨a, ha, id, hid⟩ := Weather.exists_added hfalls l.last l.driven l.origin
    have hmem : a.toValue ∈ c.actions := by
      rw [l.actions_eq]
      exact List.mem_append_right _ (List.mem_map_of_mem ha)
    obtain ⟨b, hb, -⟩ := Gate.exists_mem_of_adds hr (l.spares hsteady) hmem
      ((addedId?_toValue a).trans hid)
    exact hdropped b hb

end Composition

/-! ## Drafts that are wanted -/

theorem Photo.actions_ne_nil (p : Plan Float) (n : Nat) : (build p n).actions ≠ [] := by
  unfold build
  split
  · simp [layers]
  · simp [pan]

namespace Compiler

variable {p : Plan Float}

/-- Whatever is wanted adds elements. -/
theorem exists_added_of_wanted {d : Draft Float} (h : d ∈ wanted p) :
    ∃ a ∈ d.actions, a.added?.isSome = true := by
  rcases mem_wanted h with hscene | rfl | rfl
  · obtain ⟨make, hmake, rfl⟩ := Option.map_eq_some_iff.1 hscene
    exact ⟨_, (Scene.root_of_builder? hmake p 0).2, rfl⟩
  · exact ⟨_, List.mem_cons_self, rfl⟩
  · refine ⟨_, List.mem_cons_self, ?_⟩
    by_cases houtlined : Shape.outlined p = true <;>
      simp [Shape.element, houtlined, Action.path, Action.added?]

/-- The gate never drops all of what is wanted. -/
theorem ne_nil_of_wanted {d : Draft Float} (h : d ∈ wanted p) {f : Fragment Float} {own : Bool}
    (hf : gated d.fragment = .ok (f, own)) : f.actions ≠ [] := by
  obtain ⟨a, ha, hadded⟩ := exists_added_of_wanted h
  obtain ⟨id, hid⟩ := Option.isSome_iff_exists.1 hadded
  obtain ⟨r, hr, rfl⟩ := gated_eq_ok hf
  obtain ⟨b, hb, -⟩ := Gate.exists_mem_of_adds hr (spares_of_grounded (grounded_of_wanted h))
    (List.mem_map_of_mem ha) ((addedId?_toValue a).trans hid)
  exact List.ne_nil_of_mem hb

/-- Without a fragment that is left with actions, what was drafted is an edit. -/
theorem edit_of_drafts {ds : List (Draft Float)} (hds : drafts p = .ok ds)
    {fs : List (Fragment Float)} {whole : Bool} (hfs : gatedAll ds = .ok (fs, whole))
    (hempty : ∀ f ∈ fs, f.actions = []) :
    wanted p = [] ∧ ∃ d, Edit.build p 0 = .ok d ∧ ds = [d] := by
  have hnone : wanted p = [] := by
    by_contra hne
    obtain ⟨d, hd⟩ := List.exists_mem_of_ne_nil _ hne
    obtain rfl := eq_wanted_of_drafts hne hds
    obtain ⟨f, hf, _, hgated⟩ := (gated_of_gatedAll hfs).1 d hd
    exact ne_nil_of_wanted hd hgated (hempty f hf)
  simp only [drafts, hnone] at hds
  obtain ⟨d, hd, rfl⟩ := map_eq_ok_iff.1 hds
  exact ⟨hnone, d, hd, rfl⟩

theorem whole_iff_of_gated {f g : Fragment Float} {own : Bool} (h : gated f = .ok (g, own)) :
    own = true ↔ g.actions.length = f.actions.length := by
  obtain ⟨r, hr, heq⟩ := map_eq_ok_iff.1 h
  obtain ⟨rfl, rfl⟩ := Prod.mk.inj heq
  obtain ⟨-, -, -, -, hlength⟩ := Gate.passFrom_eq_ok hr
  rw [Passage.ok, List.isEmpty_iff_length_eq_zero]
  show _ ↔ r.actions.length = f.actions.length
  omega

/-- Drafts that are left without actions had none exactly when the gate dropped nothing. -/
theorem whole_iff_of_gatedAll {ds : List (Draft Float)} {fs : List (Fragment Float)} {whole : Bool}
    (h : gatedAll ds = .ok (fs, whole)) (hempty : ∀ f ∈ fs, f.actions = []) :
    whole = true ↔ ∀ d ∈ ds, d.actions = [] := by
  induction ds generalizing fs whole with
  | nil =>
      obtain ⟨-, rfl⟩ := gatedAll_nil_eq_ok_iff.1 h
      simp
  | cons d ds ih =>
      obtain ⟨f, own, rest, wholeRest, hf, hrest, rfl, rfl⟩ := gatedAll_cons_eq_ok_iff.1 h
      obtain ⟨hnone, hempty⟩ := List.forall_mem_cons.1 hempty
      have hown : own = true ↔ d.actions = [] := by
        rw [whole_iff_of_gated hf, hnone, Draft.fragment, List.length_map, List.length_nil,
          eq_comm, List.length_eq_zero_iff]
      rw [Bool.and_eq_true, hown, ih hrest hempty, List.forall_mem_cons]

theorem empty_of_gatedAll {ds : List (Draft Float)} {fs : List (Fragment Float)} {whole : Bool}
    (h : gatedAll ds = .ok (fs, whole)) (hempty : ∀ d ∈ ds, d.actions = []) :
    ∀ f ∈ fs, f.actions = [] := by
  intro f hf
  obtain ⟨d, hd, _, hgated⟩ := (gated_of_gatedAll h).2 f hf
  obtain ⟨r, hr, rfl⟩ := gated_eq_ok hgated
  have hle := Gate.length_passFrom_le hr
  rw [Draft.fragment, hempty d hd] at hle
  exact List.eq_nil_of_length_eq_zero (Nat.le_zero.1 hle)

/-! ## Answers -/

/-- What a plan comes to before camera and weather; a photo comes alone. -/
def primary (p : Plan Float) : Except Fault (List (Draft Float)) :=
  if p.wantsPhoto then .ok [Photo.build p 0] else drafts p

/-- The gate drops all of what a plan comes to before camera and weather. -/
def Emptied (p : Plan Float) : Prop :=
  ∃ ds fs whole, primary p = .ok ds ∧ gatedAll ds = .ok (fs, whole) ∧
    (∃ d ∈ ds, d.actions ≠ []) ∧ ∀ f ∈ fs, f.actions = []

theorem emptied_iff {ds : List (Draft Float)} (hds : primary p = .ok ds)
    {fs : List (Fragment Float)} {whole : Bool} (hfs : gatedAll ds = .ok (fs, whole)) :
    Emptied p ↔ whole = false ∧ ∀ f ∈ fs, f.actions = [] := by
  constructor
  · rintro ⟨ds', fs', whole', hds', hfs', ⟨d, hd, hne⟩, hempty⟩
    obtain rfl := Except.ok.inj (hds.symm.trans hds')
    obtain ⟨rfl, rfl⟩ := Prod.mk.inj (Except.ok.inj (hfs.symm.trans hfs'))
    refine ⟨?_, hempty⟩
    rw [← Bool.not_eq_true, whole_iff_of_gatedAll hfs hempty]
    exact fun hnone => hne (hnone d hd)
  · rintro ⟨hwhole, hempty⟩
    rw [← Bool.not_eq_true, whole_iff_of_gatedAll hfs hempty] at hwhole
    refine ⟨ds, fs, whole, hds, hfs, ?_, hempty⟩
    simpa using hwhole

/-- What an answer to a plan holds.  The scene that stands in is for plans that the gate empties;
under weather, the weather alone is the answer. -/
structure Filled (p : Plan Float) (o : Outcome Float) : Prop where
  recovered : o.summary ≠ Outcome.unrecoverableSummary
  empty : o.actions = [] ↔ p.Idle
  told : o.actions = [] → o.summary = "Nothing to change on the selected element."
  safe : o.summary = Outcome.safeSummary ↔
    Emptied p ∧ (p.wantsPhoto = true ∨ p.weather = .none)
  falling : Emptied p → p.wantsPhoto = false → p.weather ≠ .none →
    ∃ r, Gate.passAll ((Weather.overlay p 0 none (0.0, 0.0)).map Action.toValue) = .ok r ∧
      o.actions = r.actions

theorem filled_of_photo (hphoto : p.wantsPhoto = true) {o : Outcome Float}
    (ho : compilePhoto p = .ok o) : Filled p o := by
  obtain ⟨f, whole, hf, ho⟩ := compilePhoto_eq_ok_iff.1 ho
  have hprimary : primary p = .ok [Photo.build p 0] := if_pos hphoto
  have hfs : gatedAll [Photo.build p 0] = .ok ([f], whole) :=
    gatedAll_singleton_eq_ok_iff.2 ⟨f, hf, rfl⟩
  have hemptied := emptied_iff hprimary hfs
  rw [List.forall_mem_singleton] at hemptied
  have hbusy : ¬ p.Idle := fun hidle => by simp [hidle.photo] at hphoto
  have hdry : ¬ p.wantsPhoto = false := by simp [hphoto]
  obtain ⟨hdropped, ho⟩ | ⟨hkept, rfl⟩ := ho
  · obtain ⟨hsafe, hne⟩ := eq_of_safeScene ho
    refine ⟨by simp [hsafe, Outcome.safeSummary, Outcome.unrecoverableSummary],
      iff_of_false hne hbusy, fun hnone => absurd hnone hne,
      iff_of_true hsafe ⟨hemptied.2 hdropped.symm, .inl hphoto⟩,
      fun _ h => absurd h hdry⟩
  · have htold : f.summary = "" ∨ Telling f.summary := by
      obtain ⟨r, -, rfl⟩ := gated_eq_ok hf
      exact Photo.told_build p 0
    have hne : f.actions ≠ [] := by
      intro hnone
      have hwhole : whole = true := by simpa [hnone] using hkept
      have hlength := (whole_iff_of_gated hf).1 hwhole
      rw [hnone, Draft.fragment, List.length_map, eq_comm, List.length_nil,
        List.length_eq_zero_iff] at hlength
      exact Photo.actions_ne_nil p 0 hlength
    exact ⟨(ne_of_telling htold).2, iff_of_false hne hbusy, fun hnone => absurd hnone hne,
      iff_of_false (ne_of_telling htold).1 fun h => hne (hemptied.1 h.1).2,
      fun _ h => absurd h hdry⟩

variable {settings : Settings Float} {r : Request Float}

/-- A plan is idle when nothing is drafted and there is no weather. -/
theorem idle_iff (hp : Plan.ofRequest settings r = .ok p) (hphoto : p.wantsPhoto = false)
    {ds : List (Draft Float)} (hds : drafts p = .ok ds) {fs : List (Fragment Float)} {whole : Bool}
    (hfs : gatedAll ds = .ok (fs, whole)) :
    p.Idle ↔ (∀ d ∈ ds, d.actions = []) ∧ p.weather = .none := by
  constructor
  · rintro ⟨-, hscene, hcharacter, hpath, -, hweather, e, -, -, hbuild, hnone⟩
    have hwanted : wanted p = [] := by simp [wanted, hscene, hcharacter, hpath]
    simp only [drafts, hwanted, hbuild, map_ok, Except.ok.injEq] at hds
    rw [← hds, List.forall_mem_singleton]
    exact ⟨hnone, hweather⟩
  · rintro ⟨hnone, hweather⟩
    obtain ⟨hwanted, d, hd, rfl⟩ := edit_of_drafts hds hfs (empty_of_gatedAll hfs hnone)
    have hwants := not_imp_not.2 (wanted_ne_nil hp) (not_not.2 hwanted)
    simp only [not_or, Bool.not_eq_true] at hwants
    obtain ⟨f, hf, rfl⟩ := map_eq_ok_iff.1 hp
    obtain ⟨hcreate, e, htarget, hid, rfl⟩ :=
      Edit.eq_forOne_of_build (Features.count_range hf).1 hd (hnone d (by simp))
    exact ⟨hphoto, hwants.1, hwants.2.1, hwants.2.2, hcreate, hweather, e, htarget, hid, hd,
      hnone _ (by simp)⟩

theorem summary_of_idle (h : p.Idle) {ds : List (Draft Float)} (hds : drafts p = .ok ds)
    {fs : List (Fragment Float)} {whole : Bool} (hfs : gatedAll ds = .ok (fs, whole))
    {c : Composition Float} (hc : Composition.compose p fs 0 = .ok c) :
    c.summary = "Nothing to change on the selected element." := by
  obtain ⟨-, hscene, hcharacter, hpath, -, -, e, -, -, hbuild, hnone⟩ := h
  have hwanted : wanted p = [] := by simp [wanted, hscene, hcharacter, hpath]
  simp only [drafts, hwanted, hbuild, map_ok, Except.ok.injEq] at hds
  have hsummaries : fs.map (·.summary) = ["Nothing to change on the selected element."] := by
    rw [map_of_gatedAll (fun _ _ => rfl) hfs, ← hds, List.map_singleton]
    exact congrArg ([·]) (Edit.summary_of_forOne hnone)
  rw [Composition.summary_of_compose hc, hsummaries]
  rfl

section

variable {ds : List (Draft Float)} {fs : List (Fragment Float)} {whole : Bool}
  {c : Composition Float} {passed : Passage Float}

/-- When the gate leaves nothing of the drafts, only the weather is composed. -/
theorem overlay_of_emptied (hds : drafts p = .ok ds) (hfs : gatedAll ds = .ok (fs, whole))
    (hc : Composition.compose p fs 0 = .ok c) (hnone : ∀ f ∈ fs, f.actions = []) :
    c.actions = (Weather.overlay p 0 none (0.0, 0.0)).map Action.toValue := by
  obtain ⟨known, hsettled⟩ := settled_of_drafts hds hfs
  exact Composition.actions_of_empty hc fun f hf =>
    ⟨hnone f hf, Composition.rootless_of_empty (hsettled f hf).rooted (hnone f hf)⟩

/-- Nothing is composed of nothing, so that the gate has nothing to drop. -/
theorem passed_of_nothing (hds : drafts p = .ok ds) (hfs : gatedAll ds = .ok (fs, whole))
    (hc : Composition.compose p fs 0 = .ok c) (hpassed : Gate.passAll c.actions = .ok passed)
    (hnone : ∀ f ∈ fs, f.actions = []) (hweather : p.weather = .none) : passed = ⟨[], []⟩ := by
  have hcomposed : c.actions = [] := by
    rw [overlay_of_emptied hds hfs hc hnone]
    simp [Weather.overlay, hweather]
  rw [hcomposed] at hpassed
  exact (Except.ok.inj hpassed).symm

/-- The gate leaves something of every composition that holds something. -/
theorem nothing_of_passed (hds : drafts p = .ok ds) (hfs : gatedAll ds = .ok (fs, whole))
    (hc : Composition.compose p fs 0 = .ok c) (hpassed : Gate.passAll c.actions = .ok passed)
    (hnil : passed.actions = []) : (∀ f ∈ fs, f.actions = []) ∧ p.weather = .none := by
  obtain ⟨known, hsettled⟩ := settled_of_drafts hds hfs
  obtain ⟨l⟩ := Composition.compose_layout hc
  exact l.empty_of_passed (fun f hf => (hsettled f hf).steady) hpassed hnil

end

theorem filled_of_scene (hp : Plan.ofRequest settings r = .ok p) (hphoto : p.wantsPhoto = false)
    {o : Outcome Float} (ho : compileScene p = .ok o) : Filled p o := by
  obtain ⟨ds, fs, whole, c, passed, hds, hfs, hc, hpassed, ho⟩ := compileScene_eq_ok_iff.1 ho
  have hprimary : primary p = .ok ds := by simp [primary, hphoto, hds]
  have hemptied := emptied_iff hprimary hfs
  have hidle := idle_iff hp hphoto hds hfs
  have hempty := nothing_of_passed hds hfs hc hpassed
  have hnothing := passed_of_nothing hds hfs hc hpassed
  obtain ⟨hdropped, ho⟩ | ⟨hkept, rfl⟩ := ho
  · obtain ⟨hsafe, hne⟩ := eq_of_safeScene ho
    obtain ⟨hnone, hweather⟩ := hempty hdropped.1
    have hwhole : whole = false := by
      have hlost := hdropped.2
      rw [hnothing hnone hweather] at hlost
      simpa [Passage.ok] using hlost
    have hbusy : ¬ p.Idle := by
      rw [hidle, ← whole_iff_of_gatedAll hfs hnone, hwhole]
      simp
    exact ⟨by simp [hsafe, Outcome.safeSummary, Outcome.unrecoverableSummary],
      iff_of_false hne hbusy, fun h => absurd h hne,
      iff_of_true hsafe ⟨hemptied.2 ⟨hwhole, hnone⟩, .inr hweather⟩,
      fun _ _ h => absurd hweather h⟩
  · have htold := ne_of_telling (telling_of_compose (told_of_gatedAll hds hfs) hc)
    have hkeeps : passed.actions = [] → p.Idle := by
      intro hnil
      obtain ⟨hnone, hweather⟩ := hempty hnil
      have hwhole : whole = true := by
        rw [hnothing hnone hweather] at hkept
        simpa [Passage.ok] using hkept
      exact hidle.2 ⟨(whole_iff_of_gatedAll hfs hnone).1 hwhole, hweather⟩
    refine ⟨htold.2, ⟨hkeeps, fun h => ?_⟩, fun hnil => ?_, iff_of_false htold.1 fun h => ?_,
      fun h _ _ => ?_⟩
    · obtain ⟨hnone, hweather⟩ := hidle.1 h
      dsimp only
      rw [hnothing (empty_of_gatedAll hfs hnone) hweather]
    · exact summary_of_idle (hkeeps hnil) hds hfs hc
    · obtain ⟨hwhole, hnone⟩ := hemptied.1 h.1
      have hweather : p.weather = .none := h.2.resolve_left (by simp [hphoto])
      have hidle := hidle.1 (hkeeps (by rw [hnothing hnone hweather]))
      rw [(whole_iff_of_gatedAll hfs hnone).2 hidle.1] at hwhole
      cases hwhole
    · rw [overlay_of_emptied hds hfs hc (hemptied.1 h).2] at hpassed
      exact ⟨passed, hpassed, rfl⟩

/-- An answer that is no failure is never the one that gives up.  It is empty exactly when its plan
is idle, and then says that there is nothing to change.  The scene that stands in answers exactly
the plans that the gate empties, but for those with weather, which are answered by the weather. -/
theorem filled_answer (hdone : (answer settings r).summary ≠ Outcome.failureSummary) :
    ∃ p, Plan.ofRequest settings r = .ok p ∧ Filled p (answer settings r) := by
  obtain ⟨p, hp, hcompile⟩ := exists_plan_of_answer hdone
  refine ⟨p, hp, ?_⟩
  unfold compile at hcompile
  split at hcompile
  · rename_i hphoto
    exact filled_of_photo hphoto hcompile
  · rename_i hphoto
    exact filled_of_scene hp (by simpa using hphoto) hcompile

/-- A box that nothing is said about. -/
def resting : Request Float where
  prompt := "consider the box"
  existing := [{ id := "box" }]

theorem filled_answer_resting : ∃ p,
    Plan.ofRequest (Settings.read fun _ => none) resting = .ok p ∧ p.Idle ∧
      (answer (Settings.read fun _ => none) resting).summary =
        "Nothing to change on the selected element." := by
  have hdone : (answer (Settings.read fun _ => none) resting).summary ≠ Outcome.failureSummary ∧
      (answer (Settings.read fun _ => none) resting).actions.length = 0 := by
    decide +kernel
  obtain ⟨p, hp, hfilled⟩ := filled_answer hdone.1
  have hnone := List.length_eq_zero_iff.1 hdone.2
  exact ⟨p, hp, hfilled.empty.1 hnone, hfilled.told hnone⟩

/-- A spin in the rain, of an element whose id is blank. -/
def soaked : Request Float where
  prompt := "spin the existing box in the rain"
  selected := some { id := " " }
  existing := [{ id := "box" }]

/-- The gate drops the spin, but the rain stays and keeps the simple scene away. -/
theorem emptied_soaked : ∃ p, Plan.ofRequest (Settings.read fun _ => none) soaked = .ok p ∧
    Emptied p ∧ (answer (Settings.read fun _ => none) soaked).summary ≠ Outcome.failureSummary ∧
      (answer (Settings.read fun _ => none) soaked).summary ≠ Outcome.safeSummary := by
  have hdropped : (do
      let p ← Plan.ofRequest (Settings.read fun _ => none) soaked
      let ds ← primary p
      let (fs, _) ← gatedAll ds
      return ds.any (fun d => !d.actions.isEmpty) && fs.all (fun f => f.actions.isEmpty)) =
        .ok true := by
    decide +kernel
  have hown : (answer (Settings.read fun _ => none) soaked).summary ≠ Outcome.failureSummary ∧
      (answer (Settings.read fun _ => none) soaked).summary ≠ Outcome.safeSummary := by
    decide +kernel
  simp only [bind_eq_ok_iff, pure_eq_ok, Except.ok.injEq, Bool.and_eq_true, List.any_eq_true,
    List.all_eq_true, Bool.not_eq_true', List.isEmpty_iff, ← Bool.not_eq_true] at hdropped
  obtain ⟨p, hp, ds, hds, ⟨fs, whole⟩, hfs, hsome, hnone⟩ := hdropped
  exact ⟨p, hp, ⟨ds, fs, whole, hds, hfs, hsome, hnone⟩, hown⟩

end Compiler

end Storyboard
