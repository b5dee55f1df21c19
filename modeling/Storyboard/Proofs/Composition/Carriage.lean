import Storyboard.Proofs.Composition.Layout
/-!
# What composing carries along

A property of actions that survives being moved on and being placed under a parent holds of every
action of a composition, and of every action of its plan steps, once it holds of the fragments,
the wrapper, the camera and the weather.  Camera and weather start from where the anchor stands,
so a property of that place is carried beside it.
-/

namespace Storyboard.Composition

variable {α : Type}

/-- A property of actions that joining keeps. -/
structure Portable (Q : Value α → Prop) : Prop where
  raised : ∀ (k : Nat) (a : Value α), Q a → Q (Placeholder.raised k a)
  placed : ∀ (id parent : String) (a : Value α), addedId? a = some id → Q a →
    Q (placeUnder (some parent) a)

/-- All actions have a property. -/
def Every (Q : Value α → Prop) (as : List (Value α)) : Prop := ∀ a ∈ as, Q a

theorem Every.append {Q : Value α → Prop} {as bs : List (Value α)} (ha : Every Q as)
    (hb : Every Q bs) : Every Q (as ++ bs) :=
  List.forall_mem_append.2 ⟨ha, hb⟩

namespace Portable

variable {Q : Value α → Prop}

theorem every_moved (hQ : Portable Q) {k : Nat} {as : List (Value α)} (h : Every Q as) :
    Every Q (moved k as) := by
  unfold moved
  split
  · exact h
  · intro a ha
    rw [Placeholder.raisedItems_eq_map] at ha
    obtain ⟨b, hb, rfl⟩ := List.mem_map.1 ha
    exact hQ.raised k b (h b hb)

theorem every_reparent (hQ : Portable Q) {id parent : String} {as : List (Value α)}
    (h : Every Q as) : Every Q (reparent id parent as) := by
  intro a ha
  obtain ⟨b, hb, rfl⟩ := List.mem_map.1 ha
  split
  · rename_i hadds
    exact hQ.placed id parent b (adds_iff.1 hadds) (h b hb)
  · exact h b hb

theorem every_emitted (hQ : Portable Q) {wrapper : Option String} {anchored : Bool} {k : Nat}
    {f : Fragment α} (h : Every Q f.actions) : Every Q (emitted wrapper anchored k f) := by
  unfold emitted
  split
  · exact hQ.every_reparent (hQ.every_moved h)
  · exact hQ.every_moved h

theorem every_emittedAll (hQ : Portable Q) {wrapper : Option String} {anchored : Bool} {n : Nat}
    {fs : List (Fragment α)} (h : ∀ f ∈ fs, Every Q f.actions) :
    Every Q (emittedAll wrapper anchored n fs) := by
  induction fs generalizing n anchored with
  | nil => exact List.forall_mem_nil _
  | cons f fs ih =>
    obtain ⟨hf, hfs⟩ := List.forall_mem_cons.1 h
    exact (hQ.every_emitted hf).append (ih hfs)

end Portable

variable [Scalar α]

/-- What is joined so far has a property, and the anchor stands at a place that has another. -/
structure Carried (Q : Value α → Prop) (O : α × α → Prop) (s : Progress α) : Prop where
  parts : ∀ part ∈ s.parts, Every Q part.actions
  anchor : ∀ anchor, s.anchor = some anchor → O anchor.2

/-- What a fragment brings to a composition. -/
structure Cargo (Q : Value α → Prop) (O : α × α → Prop) (f : Fragment α) : Prop where
  actions : Every Q f.actions
  origin : ∀ origin, originOf f = .ok origin → O origin

variable {Q : Value α → Prop} {O : α × α → Prop}

theorem origin_of_anchorAfter {s : Progress α} {f : Fragment α}
    {anchor : Option (String × (α × α))} (h : anchorAfter s f = .ok anchor) :
    anchor = s.anchor ∨ ∃ id origin, originOf f = .ok origin ∧ anchor = some (id, origin) := by
  unfold anchorAfter at h
  split at h
  · rename_i root hs hroot
    have hid : ∃ id, (do let origin ← originOf f; return some (id, origin)) = .ok anchor := by
      split at h
      · exact ⟨root, h⟩
      · obtain ⟨id, -, h⟩ := bind_eq_ok_iff.1 h
        exact ⟨id, h⟩
    obtain ⟨id, h⟩ := hid
    obtain ⟨origin, horigin, h⟩ := bind_eq_ok_iff.1 h
    exact .inr ⟨id, origin, horigin, (Except.ok.inj h).symm⟩
  · exact .inl (Except.ok.inj h).symm

theorem carried_join (hQ : Portable Q) {wrapper : Option String} {s s' : Progress α}
    {f : Fragment α} (h : join wrapper s f = .ok s') (hs : Carried Q O s) (hf : Cargo Q O f) :
    Carried Q O s' := by
  simp only [join, bind_eq_ok_iff, mapError_eq_ok_iff, pure_eq_ok, Except.ok.injEq] at h
  obtain ⟨actions, hactions, highest, -, anchor, hanchor, rfl⟩ := h
  have hmoved : Every Q actions := (shifted_eq_ok hactions).2 ▸ hQ.every_moved hf.actions
  refine ⟨List.forall_mem_append.2 ⟨hs.parts, List.forall_mem_singleton.2 ?_⟩, fun a ha => ?_⟩
  · dsimp only
    split
    · exact hQ.every_reparent hmoved
    · exact hmoved
  · rcases origin_of_anchorAfter hanchor with hsame | ⟨id, origin, horigin, hnew⟩
    · exact hs.anchor a (hsame ▸ ha)
    · obtain rfl : (id, origin) = a := Option.some.inj (hnew.symm.trans ha)
      exact hf.origin origin horigin

theorem carried_joinAll (hQ : Portable Q) {wrapper : Option String} {s s' : Progress α}
    {fs : List (Fragment α)} (h : joinAll wrapper s fs = .ok s') (hs : Carried Q O s)
    (hfs : ∀ f ∈ fs, Cargo Q O f) : Carried Q O s' := by
  induction fs generalizing s with
  | nil =>
    obtain rfl := Except.ok.inj h
    exact hs
  | cons f fs ih =>
    obtain ⟨hf, hfs⟩ := List.forall_mem_cons.1 hfs
    obtain ⟨s₁, hjoin, h⟩ := joinAll_cons_eq_ok_iff.1 h
    exact ih h (carried_join hQ hjoin hs hf) hfs

/-- What camera and weather bring, from any place they may start from. -/
structure Overlaid (Q : Value α → Prop) (O : α × α → Prop) (p : Plan α) : Prop where
  /-- Without an anchor, and from the wrapper, they start here. -/
  corner : O (0.0, 0.0)
  wrapper : ∀ id : String, Q (Action.group id 0.0 0.0 .none : Action α).toValue
  camera : ∀ (id : String) (origin : α × α), O origin →
    Every Q ((Camera.motion p id origin).map Action.toValue)
  weather : ∀ (n : Nat) (parent : Option String) (origin : α × α), O origin →
    Every Q ((Weather.overlay p n parent origin).map Action.toValue)

/-- The step for the camera, if it moves anything; the wrapper goes with it. -/
def cameraSteps (wrapping camera : List (Value α)) : List (PlanStep α) :=
  if camera.isEmpty then [] else [⟨"Camera: Pan/Zoom", wrapping ++ camera⟩]

/-- The step for the weather, if there is any. -/
def weatherSteps (p : Plan α) (weather : List (Value α)) : List (PlanStep α) :=
  if weather.isEmpty then [] else [⟨"Weather: " ++ p.weather.name, weather⟩]

/-- The actions of a composition and those of its steps are the same wrapper, parts, camera and
weather. -/
theorem finish_eq (p : Plan α) (wrapper : Option String) (s : Progress α) :
    ∃ (origin : α × α) (camera weather : List (Value α)),
      (origin = (0.0, 0.0) ∨ ∃ anchor, s.anchor = some anchor ∧ origin = anchor.2) ∧
      camera = (cameraActions p (wrapper.or (s.anchor.map (·.1))) origin).map Action.toValue ∧
      weather = (Weather.overlay p s.issued (wrapper.or (s.anchor.map (·.1))) origin).map
        Action.toValue ∧
      (finish p wrapper s).actions =
        wrapperActions wrapper ++ s.parts.flatMap (·.actions) ++ camera ++ weather ∧
      (finish p wrapper s).steps =
        s.parts ++ cameraSteps (wrapperActions wrapper) camera ++ weatherSteps p weather := by
  cases wrapper with
  | some id =>
    refine ⟨(0.0, 0.0), _, _, .inl rfl, rfl, rfl, ?_⟩
    cases hp : p.camera <;> cases s.anchor <;>
      simp [finish, hp, cameraActions, cameraSteps, weatherSteps]
  | none =>
    cases hs : s.anchor with
    | none =>
      refine ⟨(0.0, 0.0), _, _, .inl rfl, rfl, rfl, ?_⟩
      simp [finish, hs, cameraActions, cameraSteps, weatherSteps]
    | some anchor =>
      refine ⟨anchor.2, _, _, .inr ⟨anchor, rfl, rfl⟩, rfl, rfl, ?_⟩
      cases hp : p.camera <;> simp [finish, hs, hp, cameraActions, cameraSteps, weatherSteps]

theorem finish_parts (p : Plan α) (wrapper : Option String) (s : Progress α) :
    ∃ (driven : Option String) (origin : α × α),
      (origin = (0.0, 0.0) ∨ ∃ anchor, s.anchor = some anchor ∧ origin = anchor.2) ∧
      (finish p wrapper s).actions = wrapperActions wrapper ++ s.parts.flatMap (·.actions)
        ++ (cameraActions p driven origin).map Action.toValue
        ++ (Weather.overlay p s.issued driven origin).map Action.toValue ∧
      ∀ step ∈ (finish p wrapper s).steps, step ∈ s.parts ∨
        step.actions =
          wrapperActions wrapper ++ (cameraActions p driven origin).map Action.toValue ∨
        step.actions = (Weather.overlay p s.issued driven origin).map Action.toValue := by
  obtain ⟨origin, _, _, horigin, rfl, rfl, hactions, hsteps⟩ := finish_eq p wrapper s
  refine ⟨_, origin, horigin, hactions, fun step hstep => ?_⟩
  rw [hsteps] at hstep
  rcases List.mem_append.1 hstep with hstep | hstep
  · rcases List.mem_append.1 hstep with hpart | hstep
    · exact .inl hpart
    · exact .inr (.inl (by rw [List.mem_singleton.1 (List.mem_ite_nil_left.1 hstep).2]))
  · exact .inr (.inr (by rw [List.mem_singleton.1 (List.mem_ite_nil_left.1 hstep).2]))

theorem every_finish {p : Plan α} (h : Overlaid Q O p) {wrapper : Option String}
    {s : Progress α} (hs : Carried Q O s) :
    Every Q (finish p wrapper s).actions ∧
      ∀ step ∈ (finish p wrapper s).steps, Every Q step.actions := by
  obtain ⟨driven, origin, horigin, hactions, hsteps⟩ := finish_parts p wrapper s
  have hplace : O origin := by
    rcases horigin with rfl | ⟨anchor, hanchor, rfl⟩
    · exact h.corner
    · exact hs.anchor anchor hanchor
  have hwrapping : Every Q (wrapperActions wrapper) := by
    cases wrapper with
    | none => exact List.forall_mem_nil _
    | some id => exact List.forall_mem_singleton.2 (h.wrapper id)
  have hcamera : Every Q ((cameraActions p driven origin).map Action.toValue) := by
    unfold cameraActions
    split
    · split
      · exact h.camera _ origin hplace
      · exact List.forall_mem_nil _
    · exact List.forall_mem_nil _
  have hweather := h.weather s.issued driven origin hplace
  refine ⟨?_, fun step hstep => ?_⟩
  · rw [hactions]
    exact ((hwrapping.append (List.forall_mem_flatMap.2 hs.parts)).append hcamera).append hweather
  · rcases hsteps step hstep with hpart | hsame | hsame
    · exact hs.parts step hpart
    · exact hsame ▸ hwrapping.append hcamera
    · exact hsame ▸ hweather

/-- What holds of the fragments and of what is laid over them holds of the whole composition. -/
theorem every_compose {p : Plan α} {fs : List (Fragment α)} {n : Nat} {c : Composition α}
    (hQ : Portable Q) (hover : Overlaid Q O p) (hfs : ∀ f ∈ fs, Cargo Q O f)
    (h : compose p fs n = .ok c) :
    Every Q c.actions ∧ ∀ step ∈ c.steps, Every Q step.actions := by
  obtain ⟨wrapped, s, -, -, hjoin, -, rfl⟩ := compose_eq_ok_iff.1 h
  have hstart : Carried Q O { issued := firstNumber wrapped n } :=
    ⟨List.forall_mem_nil _, fun _ h => nomatch h⟩
  exact every_finish hover (carried_joinAll hQ hjoin hstart hfs)

end Storyboard.Composition
