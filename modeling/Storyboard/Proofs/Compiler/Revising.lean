import Storyboard.Proofs.Compiler.Empty
import Storyboard.Proofs.Compiler.Keeping
import Storyboard.Proofs.Selection
/-!
# Requests that only revise

A prompt that neither names anything new to make nor asks for a scene, a figure, a photo or weather
means the canvas: its answer changes elements that are there and adds none.  The words for shapes
are the exception, as they ask for a new shape even where they name one on the canvas.
-/

namespace Storyboard

open Gate (Steady)

/-- The actions add nothing and refer to known elements only. -/
def Edits {α : Type} (known : List String) (actions : List (Value α)) : Prop :=
  ∀ a ∈ actions, ActionName.ofValue? a ≠ some .addElement ∧
    ∀ v ∈ references a, ∃ s ∈ known, v = .text s

theorem edits_toValue {known : List String} {as : List (Action Float)}
    (h : ∀ a ∈ as, a.added? = none ∧ ∀ s ∈ a.referred, s ∈ known) :
    Edits known (as.map Action.toValue) := by
  refine List.forall_mem_map.2 fun a ha => ?_
  obtain ⟨hadded, hreferred⟩ := h a ha
  constructor
  · cases a with
    | add => cases hadded
    | _ => simp [Action.toValue]
  · intro v hv
    rw [references_toValue] at hv
    obtain ⟨s, hs, rfl⟩ := List.mem_map.1 hv
    exact ⟨s, hreferred s hs, rfl⟩

theorem edits_of_passFrom {known : List String} {index : Nat} {as : List (Value Float)}
    {r : Passage Float} (hr : Gate.passFrom index as = .ok r) (h : Edits known as) :
    Edits known r.actions := by
  intro b hb
  obtain ⟨a, ha, hpass⟩ := Gate.exists_pass_of_mem hr b hb
  rw [Gate.ofValue?_of_pass hpass, Gate.references_of_pass hpass]
  exact h a ha

/-! ## Actions that get through -/

/-- Unless there are no actions, one of them passes the gate as it is. -/
def Passable (as : List (Action Float)) : Prop := as ≠ [] → ∃ a ∈ as, a.Fits

theorem passable_of_fits {as : List (Action Float)} (h : ∀ a ∈ as, a.Fits) : Passable as := by
  intro hne
  obtain ⟨a, ha⟩ := List.exists_mem_of_ne_nil _ hne
  exact ⟨a, ha, h a ha⟩

theorem Passable.append {as bs : List (Action Float)} (ha : Passable as) (hb : Passable bs) :
    Passable (as ++ bs) := by
  intro hne
  by_cases hnone : as = []
  · obtain ⟨b, hmem, hfits⟩ := hb (by simpa [hnone] using hne)
    exact ⟨b, List.mem_append_right _ hmem, hfits⟩
  · obtain ⟨a, hmem, hfits⟩ := ha hnone
    exact ⟨a, List.mem_append_left _ hmem, hfits⟩

theorem passable_flatMap {β : Type} {xs : List β} {f : β → List (Action Float)}
    (h : ∀ x ∈ xs, Passable (f x)) : Passable (xs.flatMap f) := by
  induction xs with
  | nil => exact fun hne => absurd rfl hne
  | cons x xs ih =>
      obtain ⟨hx, hxs⟩ := List.forall_mem_cons.1 h
      rw [List.flatMap_cons]
      exact hx.append (ih hxs)

/-- Every motion starts with a keyframe at zero, which can be set whatever the duration. -/
theorem Animation.passable {m : Animation} {id : String} {d : Float} {f : Features Float}
    {base : Float × Float} {goal : Option (Float × Float)} (hid : Named id) :
    Passable (m.keyframes id d f base goal) := by
  have hkey : ∀ {property easing : String} {value : Float}, property ∈ Gate.animatable →
      Within property value → (Action.key id property 0.0 value easing).Fits :=
    fun hproperty hvalue => Action.fits_key.2 ⟨hid, hproperty, settable_zero, inPlace_real hvalue⟩
  have hmoving : Passable (moving id d f base goal) := by
    intro _
    unfold moving
    split
    · exact ⟨_, List.mem_cons_self, hkey (by decide) (within_of_unbounded (by decide))⟩
    · exact ⟨_, List.mem_append_left _ List.mem_cons_self,
        hkey (by decide) (within_of_unbounded (by decide))⟩
  have hwhen : ∀ {b : Bool} {as : List (Action Float)}, Passable as →
      Passable (if b then as else []) := by
    intro b as h
    cases b
    · exact fun hne => absurd rfl hne
    · exact h
  refine ((((hwhen hmoving).append (hwhen ?_)).append (hwhen ?_)).append (hwhen ?_)).append
    (hwhen ?_) <;> intro _ <;> refine ⟨_, List.mem_cons_self, hkey (by decide) ?_⟩
  · exact within_of_unbounded (by decide)
  all_goals decide

/-! ## Edits of the canvas -/

namespace Selection

variable {α : Type} {f : Features α} {elements : List (Element α)}

/-- With elements on the canvas, one of them is meant. -/
theorem exists_pick [Scalar α] {e? : Option (Element α)} (h : elements ≠ [])
    (hpick : pick f elements = .ok e?) : ∃ e, e? = some e := by
  simp only [pick, bind_eq_ok_iff] at hpick
  obtain ⟨measures, hmeasures, hpick⟩ := hpick
  cases measures with
  | nil => exact absurd (map_fst_of_measured hmeasures).symm (candidates_ne_nil h)
  | cons first rest => exact ⟨_, (Except.ok.inj hpick).symm⟩

end Selection

/-- The plan names nothing new to make, and the canvas holds elements, all of them with a name. -/
structure Plan.Revising (p : Plan Float) : Prop where
  create : p.wantsCreate = false
  scene : p.wantsScene = false
  character : p.wantsCharacter = false
  photo : p.wantsPhoto = false
  weather : p.weather = .none
  existing : p.existing ≠ []
  named : ∀ id ∈ p.canvas, ∃ c ∈ id.toList, Text.isBlank c = false

namespace Edit

variable {p : Plan Float}

/-- The edit of a revising plan changes elements that are there. -/
theorem build_of_revising (h : p.Revising) {d : Draft Float} (hd : build p 0 = .ok d) :
    forAll? p 0 = some d ∨ ∃ e ∈ p.selected.toList ++ p.existing, d = forOne p 0 e := by
  have hpicked : ∀ {e?}, target? p = .ok e? →
      ∃ e ∈ p.selected.toList ++ p.existing, e? = some e := by
    intro e? htarget
    obtain ⟨e, rfl⟩ : ∃ e, e? = some e := by
      unfold target? at htarget
      split at htarget
      · exact ⟨_, (Except.ok.inj htarget).symm⟩
      · exact Selection.exists_pick h.existing htarget
    exact ⟨e, mem_of_target? htarget, rfl⟩
  unfold build at hd
  rw [h.create] at hd
  simp only [Bool.false_eq_true, if_false] at hd
  split at hd
  · rename_i d' hall
    exact .inl (hall.trans (congrArg some (Except.ok.inj hd)))
  · obtain ⟨e?, htarget, hd⟩ := bind_eq_ok_iff.1 hd
    obtain ⟨e, he, rfl⟩ := hpicked htarget
    have hne : e.id ≠ "" := by
      intro hempty
      obtain ⟨c, hc, -⟩ := h.named e.id (List.mem_map_of_mem he)
      rw [hempty] at hc
      simp at hc
    simp only [hne, if_false] at hd
    exact .inr ⟨e, he, (Except.ok.inj hd).symm⟩

theorem mentions_of_revising (h : p.Revising) {d : Draft Float} (hd : build p 0 = .ok d) :
    ∀ a ∈ d.actions, a.added? = none ∧ ∀ s ∈ a.referred, s ∈ p.canvas := by
  intro a ha
  have hpainted : a ∈ (repaint p.features).1 →
      a.added? = none ∧ ∀ s ∈ a.referred, s ∈ p.canvas := fun ha =>
    ⟨(mentions_repaint ha).1, fun s hs => by simpa using (mentions_repaint ha).2 s hs⟩
  rcases build_of_revising h hd with hall | ⟨e, he, rfl⟩
  · simp only [forAll?, Option.ite_none_right_eq_some, Option.some.injEq] at hall
    rw [← hall.2] at ha
    exact (List.mem_append.1 ha).elim hpainted mentions_changeAll
  · refine (List.mem_append.1 ha).elim hpainted fun ha => ?_
    obtain ⟨hadded, hreferred⟩ := mentions_change ha
    exact ⟨hadded, fun s hs => hreferred s hs ▸ List.mem_map_of_mem he⟩

theorem passable_of_revising (h : p.Revising) (htempered : p.features.Tempered) {d : Draft Float}
    (hd : build p 0 = .ok d) : Passable d.actions := by
  have hnamed : ∀ id ∈ p.canvas, Named id := fun id hid => Gate.isNamed_text_iff.2 (h.named id hid)
  rcases build_of_revising h hd with hall | ⟨e, he, rfl⟩
  · simp only [forAll?, Option.ite_none_right_eq_some, Option.some.injEq] at hall
    rw [← hall.2]
    refine (passable_of_fits (fits_repaint _)).append (passable_flatMap fun e he => ?_)
    have hid := hnamed e.id (List.mem_map_of_mem (List.mem_append_right _ he))
    exact (passable_of_fits (fits_update? hid (inPlace_changes htempered e))).append
      (Animation.passable hid)
  · have hid := hnamed e.id (List.mem_map_of_mem he)
    refine (passable_of_fits (fits_repaint _)).append
      ((passable_of_fits (fits_update? hid ?_)).append (Animation.passable hid))
    refine List.forall_mem_append.2 ⟨inPlace_changes htempered e, ?_⟩
    split <;> simp +decide

end Edit

/-! ## Answers -/

namespace Compiler

variable {p : Plan Float}

/-- A single fragment without a root is composed of its own actions when there is no weather. -/
theorem actions_of_singleton {f : Fragment Float} {c : Composition Float}
    (hc : Composition.compose p [f] 0 = .ok c) (hroot : f.root? = none)
    (hweather : p.weather = .none) : c.actions = f.actions := by
  obtain ⟨_, _, _, harranged, hactions⟩ :=
    Composition.exists_of_rootless hc (List.forall_mem_singleton.2 hroot)
  cases harranged with
  | anchor root =>
      rw [hroot] at root
      cases root
  | rootless _ shifted rest =>
      cases rest
      have hblock := shifted.block_eq
      simp only [Placeholder.renumber, Nat.cast_zero, if_true, Except.ok.injEq,
        Value.list.injEq] at hblock
      simp [hactions, hblock, Weather.overlay, hweather]

theorem wanted_of_revising (h : p.Revising) (hpath : p.wantsPath = false) : wanted p = [] := by
  simp [wanted, h.scene, h.character, hpath]

theorem edits_of_revising (h : p.Revising) (htempered : p.features.Tempered)
    (hpath : p.wantsPath = false) {o : Outcome Float} (ho : compileScene p = .ok o) :
    Edits p.canvas o.actions := by
  have hwanted := wanted_of_revising h hpath
  obtain ⟨ds, fs, whole, c, passed, hds, hfs, hc, hpassed, ho⟩ := compileScene_eq_ok_iff.1 ho
  simp only [drafts, hwanted, map_eq_ok_iff] at hds
  obtain ⟨d, hd, rfl⟩ := hds
  obtain ⟨f, hf, rfl⟩ := gatedAll_singleton_eq_ok_iff.1 hfs
  have hroot : f.root? = none := by
    obtain ⟨r, -, rfl⟩ := gated_eq_ok hf
    simp [Fragment.root?, Draft.fragment, Edit.root_of_build hd]
  obtain ⟨r, hr, hsame⟩ := gated_eq_ok hf
  have hactions : c.actions = r.actions := by
    rw [actions_of_singleton hc hroot h.weather, hsame]
  have hagain : passed = ⟨r.actions, []⟩ := by
    rw [hactions] at hpassed
    exact Except.ok.inj
      (hpassed.symm.trans (Gate.passFrom_of_steady (Gate.steady_of_passFrom hr)))
  subst hagain
  obtain ⟨⟨hnone, hlost⟩, -⟩ | ⟨-, rfl⟩ := ho
  · dsimp only at hnone
    rw [Passage.ok, List.isEmpty_nil, Bool.and_true] at hlost
    -- What got lost was there, and its first action gets through.
    have hne : d.actions ≠ [] := by
      intro hempty
      have hwhole : whole = true := (whole_iff_of_gated hf).2 (by
        rw [hsame, Draft.fragment, hempty, hnone]
        rfl)
      rw [hwhole] at hlost
      cases hlost
    obtain ⟨a, ha, hfits⟩ := Edit.passable_of_revising h htempered hd hne
    have hmem := Gate.mem_of_passFrom hr (List.mem_map_of_mem ha) (Action.steady_of_fits hfits)
    rw [hnone] at hmem
    cases hmem
  · exact edits_of_passFrom hr (edits_toValue (Edit.mentions_of_revising h hd))

theorem exists_addedIds_of_emittedAll {wrapper : Option String} {anchored : Bool} {n : Nat}
    {fs : List (Fragment Float)} {f : Fragment Float} (hf : f ∈ fs)
    (hadds : addedIds f.actions ≠ []) :
    ∃ id, id ∈ addedIds (Composition.emittedAll wrapper anchored n fs) := by
  induction fs generalizing n anchored with
  | nil => cases hf
  | cons g fs ih =>
      rw [Composition.emittedAll, addedIds_append, Composition.addedIds_emitted]
      rcases List.mem_cons.1 hf with rfl | hf
      · obtain ⟨id, hid⟩ := List.exists_mem_of_ne_nil _ hadds
        exact ⟨_, List.mem_append_left _ (List.mem_map_of_mem hid)⟩
      · obtain ⟨id, hid⟩ := ih hf
        exact ⟨id, List.mem_append_right _ hid⟩

/-- Whatever is wanted comes to new elements. -/
theorem exists_new_of_wanted (hwanted : wanted p ≠ []) {o : Outcome Float}
    (ho : compileScene p = .ok o) :
    ∃ a ∈ o.actions, ActionName.ofValue? a = some .addElement := by
  obtain ⟨ds, fs, whole, c, passed, hds, hfs, hc, hpassed, ho⟩ := compileScene_eq_ok_iff.1 ho
  obtain rfl := eq_wanted_of_drafts hwanted hds
  have hsettled := settled_of_gatedAll (fun d hd => grounded_of_wanted hd) hfs
  obtain ⟨l⟩ := Composition.compose_layout hc
  obtain ⟨d, hd⟩ := List.exists_mem_of_ne_nil _ hwanted
  obtain ⟨f, hf, _, hgated⟩ := (gated_of_gatedAll hfs).1 d hd
  have hadds : addedIds f.actions ≠ [] := by
    obtain ⟨r, hr, rfl⟩ := gated_eq_ok hgated
    obtain ⟨a, ha, hadded⟩ := exists_added_of_wanted hd
    obtain ⟨id, hid⟩ := Option.isSome_iff_exists.1 hadded
    have hids := Gate.addedIds_of_passFrom hr (spares_of_grounded (grounded_of_wanted hd))
    refine List.ne_nil_of_mem (a := id) ?_
    show id ∈ addedIds r.actions
    rw [hids]
    exact List.mem_filterMap.2
      ⟨_, List.mem_map_of_mem ha, (addedId?_toValue a).trans hid⟩
  obtain ⟨id, hid⟩ := exists_addedIds_of_emittedAll hf hadds
  obtain ⟨a, ha, hadded⟩ := List.mem_filterMap.1 hid
  have hmem : a ∈ c.actions := by
    rw [l.actions_eq]
    exact List.mem_append_left _ (List.mem_append_left _ (List.mem_append_right _ ha))
  obtain ⟨b, hb, hpass⟩ := Gate.exists_mem_of_adds hpassed
    (l.spares fun f hf => (hsettled f hf).steady) hmem hadded
  obtain ⟨⟨hnone, -⟩, -⟩ | ⟨-, rfl⟩ := ho
  · exact absurd hnone (List.ne_nil_of_mem hb)
  refine ⟨b, hb, ?_⟩
  rw [Gate.ofValue?_of_pass hpass]
  exact (addedId?_eq_some_iff.1 hadded).1

variable {settings : Settings Float} {r : Request Float}

theorem attempt_of_revising (hp : Plan.ofRequest settings r = .ok p) (h : p.Revising) :
    attempt settings r = compileScene p := by
  simp [attempt, hp, compile, h.photo]

/-- A shape that is wanted is drawn anew. -/
theorem not_edits_of_path (hp : Plan.ofRequest settings r = .ok p) (h : p.Revising)
    (hpath : p.wantsPath = true) : ¬ Edits p.canvas (answer settings r).actions := by
  have hwanted := wanted_ne_nil hp (.inr (.inr hpath))
  obtain ⟨o, ho⟩ := compileScene_returns_of_wanted (Plan.painted_of_ofRequest hp) hwanted
  obtain ⟨a, ha, hnew⟩ := exists_new_of_wanted hwanted ho
  unfold answer
  rw [attempt_of_revising hp h, ho]
  exact fun hedits => (hedits a ha).1 hnew

/-- A revising plan is answered by edits of its canvas exactly when it wants no shape. -/
theorem answer_edits_iff (hp : Plan.ofRequest settings r = .ok p) (h : p.Revising) :
    Edits p.canvas (answer settings r).actions ↔ p.wantsPath = false := by
  constructor
  · intro hedits
    by_contra hpath
    exact not_edits_of_path hp h (by simpa using hpath) hedits
  · intro hpath
    unfold answer
    rw [attempt_of_revising hp h]
    cases ho : compileScene p with
    | error e => exact List.forall_mem_nil _
    | ok o => exact edits_of_revising h (tempered_of_ofRequest hp) hpath ho

/-- A prompt without the words that call for something new revises a canvas whose elements have
names, and wants a shape exactly when it has a word for one. -/
theorem exists_revising_of_quiet (settings : Settings Float) (hlegible : r.Legible)
    (hquiet : ∀ k ∈ .photo :: Intent.createKeywords ++ Intent.sceneKeywords ++
      Intent.characterKeywords, k.isIn (Features.normalize r.prompt).toList = false)
    (hselected : r.selected = none) (hexisting : r.existing ≠ [])
    (hnamed : ∀ e ∈ r.existing, ∃ c ∈ e.id.toList, Text.isBlank c = false) :
    ∃ p, Plan.ofRequest settings r = .ok p ∧ p.Revising ∧ p.wantsPath =
      (.wavePath :: Intent.pathKeywords).any (·.isIn (Features.normalize r.prompt).toList) := by
  obtain ⟨p, hp⟩ := ofRequest_returns settings hlegible
  refine ⟨p, hp, ?_⟩
  obtain ⟨f, hf, rfl⟩ := map_eq_ok_iff.1 hp
  have hmentions := Features.mentions_of_ofText hf
  have hany : ∀ ks ⊆ (.photo :: Intent.createKeywords ++ Intent.sceneKeywords ++
      Intent.characterKeywords), f.any ks = false := by
    intro ks hsub
    rw [Features.any, hmentions, List.any_eq_false]
    exact fun k hk => by simp [hquiet k (hsub hk)]
  have hweather : Intent.weathers.first? f = none := by
    simp [Rules.first?, Intent.weathers, hany [.rain] (by decide), hany [.snow] (by decide)]
  have hphoto : f.mentions .photo = false := by
    simpa [Features.any] using hany [.photo] (by decide)
  have hcharacter := hany Intent.characterKeywords (by decide)
  refine ⟨⟨hany Intent.createKeywords (by decide), ?_, hcharacter, ?_, ?_, hexisting, ?_⟩, ?_⟩
  · simp [hany Intent.sceneKeywords (by decide)]
  · simp [hphoto, hselected]
  · simp [hweather]
  · rw [Plan.canvas, hselected]
    simpa using hnamed
  · show (f.any Intent.pathKeywords ||
      (f.mentions .wavePath && !f.any Intent.characterKeywords)) = _
    rw [hcharacter, Bool.not_false, Bool.and_true, Bool.or_comm, List.any_cons, Features.any,
      hmentions]

/-- A box that is to be red. -/
def reddened : Request Float where
  prompt := "make the box red"
  existing := [{ id := "box", kind := "rect" }]

theorem answer_edits_reddened : ∃ p,
    Plan.ofRequest (Settings.read fun _ => none) reddened = .ok p ∧ p.Revising ∧
      Edits p.canvas (answer (Settings.read fun _ => none) reddened).actions := by
  have hlegible : reddened.Legible :=
    ⟨Text.shortRuns_of_no_digits (by decide +kernel),
      by simpa [reddened] using Text.shortRuns_of_no_digits (by decide +kernel)⟩
  obtain ⟨p, hp, hrevising, hpath⟩ := exists_revising_of_quiet _ hlegible (by decide +kernel) rfl
    (List.cons_ne_nil _ _) (List.forall_mem_singleton.2 ⟨'b', by decide, by decide⟩)
  exact ⟨p, hp, hrevising, (answer_edits_iff hp hrevising).2 (hpath.trans (by decide +kernel))⟩

/-- A path on the canvas that is to be red. -/
def retraced : Request Float where
  prompt := "make the existing path red"
  existing := [{ id := "p", kind := "path" }]

/-- The path stays as it is, and a new one is drawn. -/
theorem answer_retraced : ∃ p,
    Plan.ofRequest (Settings.read fun _ => none) retraced = .ok p ∧ p.Revising ∧
      ¬ Edits p.canvas (answer (Settings.read fun _ => none) retraced).actions := by
  have hlegible : retraced.Legible :=
    ⟨Text.shortRuns_of_no_digits (by decide +kernel),
      by simpa [retraced] using Text.shortRuns_of_no_digits (by decide +kernel)⟩
  obtain ⟨p, hp, hrevising, hpath⟩ := exists_revising_of_quiet _ hlegible (by decide +kernel) rfl
    (List.cons_ne_nil _ _) (List.forall_mem_singleton.2 ⟨'p', by decide, by decide⟩)
  exact ⟨p, hp, hrevising, not_edits_of_path hp hrevising (hpath.trans (by decide +kernel))⟩

end Compiler

end Storyboard
