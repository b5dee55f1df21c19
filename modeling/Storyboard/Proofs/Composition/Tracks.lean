import Storyboard.Proofs.Composition.Closure
import Storyboard.Proofs.Stamp
/-!
# The tracks of a composition

Fragments whose keyframes rise on every track are composed to a sequence of the same kind.  Each
fragment has elements of its own once it is moved on, the weather adds new ones, and the camera
moves the anchor only where no keyframe of the anchor does, or else a wrapper that nothing moves.
So no two steps of the plan share a track.
-/

namespace Storyboard.Composition

open Placeholder (textRuns)
open Stamp (Rising Separate)

variable {α : Type}

theorem movedText_of_textRuns {s : String} (h : textRuns s = []) (k : Nat) :
    movedText k s = s := by
  unfold movedText
  split
  · rfl
  · exact Placeholder.raisedText_of_textRuns_eq_nil h

/-- Keyframes from zero to `d`, rising on every track, of elements with numbers above `low` and up
to `high`. -/
structure Charted (d : Rat) (low high : Nat) (ss : List Stamp) : Prop where
  rising : Rising ss
  timed : ∀ s ∈ ss, 0 ≤ s.time ∧ s.time ≤ d
  within : ∀ s ∈ ss, ∃ k, low < k ∧ k ≤ high ∧ s.element = Placeholder.id k

namespace Charted

variable {d : Rat} {low mid high : Nat} {ss ts : List Stamp}

theorem nil (d : Rat) (low high : Nat) : Charted d low high [] :=
  ⟨List.Pairwise.nil, by simp, by simp⟩

theorem mono {high' : Nat} (h : Charted d low high ss) (hle : high ≤ high') :
    Charted d low high' ss := by
  refine ⟨h.rising, h.timed, fun s hs => ?_⟩
  obtain ⟨k, hlow, hhigh, hid⟩ := h.within s hs
  exact ⟨k, hlow, hhigh.trans hle, hid⟩

/-- Elements with other numbers are other elements. -/
theorem separate (hs : Charted d low mid ss) {high' : Nat} (ht : Charted d mid high' ts) :
    Separate ss ts := by
  refine Stamp.separate_of_element fun s hsmem t htmem heq => ?_
  obtain ⟨j, -, hj, hids⟩ := hs.within s hsmem
  obtain ⟨k, hk, -, hidt⟩ := ht.within t htmem
  have hsame : j = k := Placeholder.id_injective (hids.symm.trans (heq.trans hidt))
  omega

/-- Moving the elements on keeps them apart. -/
theorem moved (h : Charted d low high ss) (hplain : ∀ s ∈ ss, textRuns s.property = []) (k : Nat) :
    Charted d (low + k) (high + k) (ss.map (Stamp.moved k)) := by
  have helement : ∀ s ∈ ss, ∃ j, low < j ∧ j ≤ high ∧ s.element = Placeholder.id j ∧
      (s.moved k).element = Placeholder.id (j + k) := by
    intro s hs
    obtain ⟨j, hlow, hhigh, hid⟩ := h.within s hs
    exact ⟨j, hlow, hhigh, hid, by rw [Stamp.moved, hid, movedText_id]⟩
  refine ⟨List.pairwise_map.2 (h.rising.imp_of_mem ?_), ?_, ?_⟩
  · intro s t hs ht hlt hmoved
    obtain ⟨hmovedElement, hmovedProperty⟩ := hmoved
    obtain ⟨i, -, -, hi, hi'⟩ := helement s hs
    obtain ⟨j, -, -, hj, hj'⟩ := helement t ht
    refine hlt ⟨?_, ?_⟩
    · rw [hi', hj'] at hmovedElement
      rw [hi, hj, Nat.add_right_cancel (Placeholder.id_injective hmovedElement)]
    · simpa only [Stamp.moved, movedText_of_textRuns (hplain s hs),
        movedText_of_textRuns (hplain t ht)] using hmovedProperty
  · rw [List.forall_mem_map]
    exact h.timed
  · rw [List.forall_mem_map]
    intro s hs
    obtain ⟨j, hlow, hhigh, -, hid⟩ := helement s hs
    exact ⟨j + k, by omega, by omega, hid⟩

end Charted

/-! ## Fragments one after the other -/

variable [Scalar α]

/-- What the keyframes of a fragment that is to be joined keep to. -/
structure Traced (d : Rat) (f : Fragment α) : Prop where
  charted : Charted d 0 (peakOf f) (stamps f.actions)
  plain : ∀ s ∈ stamps f.actions, textRuns s.property = []
  root : ∀ root, f.root? = some root → ∃ k, 0 < k ∧ k ≤ peakOf f ∧ root = Placeholder.id k

/-- What the keyframes that are joined so far keep to, with the anchor free for the camera when
there is no wrapper. -/
structure Tracked (p : Plan α) (d : Rat) (low : Nat) (wrapper : Option String) (s : Progress α) :
    Prop where
  parts : ∀ part ∈ s.parts, Charted d low s.issued (stamps part.actions)
  separate : s.parts.Pairwise fun part later =>
    Separate (stamps part.actions) (stamps later.actions)
  anchor : ∀ anchor, s.anchor = some anchor →
    ∃ k, low < k ∧ k ≤ s.issued ∧ anchor.1 = Placeholder.id k
  low_le : low ≤ s.issued
  free : wrapper = none → p.camera = true → ∀ anchor, s.anchor = some anchor →
    ∀ part ∈ s.parts, ∀ stamp ∈ stamps part.actions,
      stamp.element = anchor.1 → stamp.property ∉ Camera.properties

theorem not_driven_of_drives {id : String} {a : Value α} {s : Stamp}
    (h : drives id a = .ok false) (hs : stamp? a = some s) (hid : s.element = id) :
    s.property ∉ Camera.properties := by
  obtain ⟨hname, helement, hproperty, -⟩ := stamp?_eq_some_iff.1 hs
  obtain ⟨payload, hpayload, helement⟩ := get?_payloadOf_eq_some_iff.1 helement
  rw [payloadOf_eq hpayload] at hproperty
  simpa [drives, hpayload, isNamed, hname, isText, helement, hproperty, hid] using h

/-- An element that is not driven has no keyframe on a property that the camera moves. -/
theorem not_driven {id : String} {as : List (Value α)} (h : isDriven id as = .ok false) :
    ∀ s ∈ stamps as, s.element = id → s.property ∉ Camera.properties := by
  induction as with
  | nil => simp [stamps]
  | cons a as ih =>
      simp only [isDriven, bind_eq_ok_iff] at h
      obtain ⟨driven, ha, h⟩ := h
      split at h
      · simp at h
      · rename_i hdriven
        rw [Bool.not_eq_true] at hdriven
        subst hdriven
        intro s hs
        rcases List.mem_filterMap.1 hs with ⟨b, hb, hstamp⟩
        rcases List.mem_cons.1 hb with rfl | hb
        · exact not_driven_of_drives ha hstamp
        · exact ih h s (List.mem_filterMap.2 ⟨b, hb, hstamp⟩)

/-- Joining a fragment adds one part, with the fragment's stamps moved on. -/
theorem parts_of_join {wrapper : Option String} {s s' : Progress α} {f : Fragment α}
    (h : join wrapper s f = .ok s') :
    ∃ part, s'.parts = s.parts ++ [part] ∧
      stamps part.actions = (stamps f.actions).map (Stamp.moved s.issued) := by
  simp only [join, bind_eq_ok_iff, mapError_eq_ok_iff, pure_eq_ok, Except.ok.injEq] at h
  obtain ⟨actions, hactions, highest, -, anchor, -, rfl⟩ := h
  refine ⟨_, rfl, ?_⟩
  rw [(shifted_eq_ok hactions).2]
  dsimp only
  split
  · rw [stamps_reparent, stamps_moved]
  · exact stamps_moved s.issued f.actions

variable {p : Plan α} {d : Rat} {low : Nat} {wrapper : Option String}

/-- The anchor once a fragment is joined: the one before, or else the fragment's root. -/
theorem anchor_of_join {s s' : Progress α} {f : Fragment α} (h : join wrapper s f = .ok s')
    {anchor : String × (α × α)} (ha : s'.anchor = some anchor) :
    (∃ before, s.anchor = some before ∧ before.1 = anchor.1) ∨
      s.anchor = none ∧ ∃ root, f.root? = some root ∧ anchor.1 = movedText s.issued root := by
  have hid := (join_eq_ok h).2.2.2
  rw [ha] at hid
  cases hs : s.anchor with
  | some before =>
      rw [hs] at hid
      exact .inl ⟨before, rfl, by simpa using hid.symm⟩
  | none =>
      rw [hs] at hid
      obtain ⟨root, hroot, heq⟩ : ∃ root, f.root? = some root ∧
          movedText s.issued root = anchor.1 := by
        simpa using hid.symm
      exact .inr ⟨rfl, root, hroot, heq.symm⟩

/-- Moved on, the stamps of a root that is not driven are on none of the camera's properties. -/
theorem Traced.not_driven_moved {f : Fragment α} (hf : Traced d f) {j n : Nat}
    (hfree : isDriven (Placeholder.id j) f.actions = .ok false) :
    ∀ stamp ∈ (stamps f.actions).map (Stamp.moved n), stamp.element = Placeholder.id (j + n) →
      stamp.property ∉ Camera.properties := by
  intro stamp hstamp hsame
  obtain ⟨t, ht, rfl⟩ := List.mem_map.1 hstamp
  obtain ⟨k, -, -, hid⟩ := hf.charted.within t ht
  have hroot : t.element = Placeholder.id j := by
    simp only [Stamp.moved, hid, movedText_id] at hsame
    rw [hid, Nat.add_right_cancel (Placeholder.id_injective hsame)]
  simp only [Stamp.moved, movedText_of_textRuns (hf.plain t ht)]
  exact not_driven hfree t ht hroot

/-- Once a fragment is joined, the anchor is still one of the elements of the fragments. -/
theorem numbered_anchor_of_join {s s' : Progress α} {f : Fragment α}
    (h : join wrapper s f = .ok s') (hs : Tracked p d low wrapper s) (hf : Traced d f)
    {anchor : String × (α × α)} (ha : s'.anchor = some anchor) :
    ∃ k, low < k ∧ k ≤ s'.issued ∧ anchor.1 = Placeholder.id k := by
  have hissued := (join_eq_ok h).1
  rcases anchor_of_join h ha with ⟨before, hbefore, heq⟩ | ⟨-, root, hroot, heq⟩
  · obtain ⟨k, hlow, hhigh, hid⟩ := hs.anchor before hbefore
    exact ⟨k, hlow, by omega, heq ▸ hid⟩
  · obtain ⟨k, hpos, hpeak, rfl⟩ := hf.root root hroot
    have := hs.low_le
    exact ⟨k + s.issued, by omega, by omega, by rw [heq, movedText_id]⟩

/-- Joining a fragment keeps the tracks apart.  Without a wrapper, the root that becomes the anchor
must not be driven. -/
theorem tracked_join {s s' : Progress α} {f : Fragment α} (h : join wrapper s f = .ok s')
    (hs : Tracked p d low wrapper s) (hf : Traced d f)
    (hfree : wrapper = none → p.camera = true → s.anchor = none →
      ∀ root, f.root? = some root → isDriven root f.actions = .ok false) :
    Tracked p d low wrapper s' := by
  obtain ⟨hissued, -⟩ := join_eq_ok h
  obtain ⟨part, hparts, hstamps⟩ := parts_of_join h
  have hnew : Charted d s.issued s'.issued (stamps part.actions) := by
    have hmoved := hf.charted.moved hf.plain s.issued
    rwa [Nat.zero_add, Nat.add_comm, ← hissued, ← hstamps] at hmoved
  have hgrow : s.issued ≤ s'.issued := by omega
  refine ⟨?_, ?_, fun _ => numbered_anchor_of_join h hs hf, hs.low_le.trans hgrow,
    fun hwrapper hcamera anchor ha => ?_⟩
  · rw [hparts, List.forall_mem_append, List.forall_mem_singleton]
    refine ⟨fun old hold => (hs.parts old hold).mono hgrow, hnew.rising, hnew.timed, ?_⟩
    intro stamp hstamp
    obtain ⟨k, hlow, hhigh, hid⟩ := hnew.within stamp hstamp
    exact ⟨k, by have := hs.low_le; omega, hhigh, hid⟩
  · rw [hparts, List.pairwise_append]
    refine ⟨hs.separate, List.pairwise_singleton _ _, fun old hold later hlater => ?_⟩
    rw [List.mem_singleton.1 hlater]
    exact (hs.parts old hold).separate hnew
  · rw [hparts, List.forall_mem_append, List.forall_mem_singleton]
    rcases anchor_of_join h ha with ⟨before, hbefore, heq⟩ | ⟨hnone, root, hroot, heq⟩
    · -- The anchor was there before, and the new elements are others.
      rw [← heq]
      refine ⟨hs.free hwrapper hcamera before hbefore, fun stamp hstamp hsame => ?_⟩
      obtain ⟨j, -, hj, hid⟩ := hs.anchor before hbefore
      obtain ⟨k, hk, -, hk'⟩ := hnew.within stamp hstamp
      have : j = k := Placeholder.id_injective (hid.symm.trans (hsame.symm.trans hk'))
      omega
    · obtain ⟨j, hpos, -, rfl⟩ := hf.root root hroot
      rw [movedText_id] at heq
      constructor
      · intro old hold stamp hstamp hsame
        obtain ⟨k, -, hk, hid⟩ := (hs.parts old hold).within stamp hstamp
        have : j + s.issued = k :=
          Placeholder.id_injective (heq.symm.trans (hsame.symm.trans hid))
        omega
      · rw [heq, hstamps]
        exact hf.not_driven_moved (hfree hwrapper hcamera hnone _ hroot)

theorem tracked_joinAll {s s' : Progress α} {fs : List (Fragment α)}
    (h : joinAll wrapper s fs = .ok s') (hs : Tracked p d low wrapper s)
    (hfs : ∀ f ∈ fs, Traced d f)
    (hfree : wrapper = none → s.anchor = none → needsWrapper p fs = .ok false) :
    Tracked p d low wrapper s' := by
  induction fs generalizing s with
  | nil =>
      obtain rfl := Except.ok.inj h
      exact hs
  | cons f fs ih =>
      obtain ⟨hf, hfs⟩ := List.forall_mem_cons.1 hfs
      obtain ⟨s₁, hjoin, h⟩ := joinAll_cons_eq_ok_iff.1 h
      refine ih h (tracked_join hjoin hs hf ?_) hfs ?_
      · intro hwrapper hcamera hnone root hroot
        simpa [needsWrapper, hroot, hcamera] using hfree hwrapper hnone
      · intro hwrapper hnone
        have hboth := (join_eq_ok hjoin).2.2.2
        simp only [hnone, Option.map_none, eq_comm (a := none), Option.or_eq_none_iff,
          Option.map_eq_none_iff] at hboth
        simpa [needsWrapper, hboth.2] using hfree hwrapper hboth.1

/-! ## Camera and weather -/

/-- What the keyframes of camera and weather keep to, wherever they start from. -/
structure Laid (p : Plan α) (d : Rat) : Prop where
  camera : ∀ (id : String) (origin : α × α),
    Rising ((Camera.motion p id origin).filterMap Action.stamp?) ∧
      ∀ s ∈ (Camera.motion p id origin).filterMap Action.stamp?,
        (0 ≤ s.time ∧ s.time ≤ d) ∧ s.element = id ∧ s.property ∈ Camera.properties
  weather : ∀ (n : Nat) (parent : Option String) (origin : α × α),
    Charted d n (Weather.issued p n) ((Weather.overlay p n parent origin).filterMap Action.stamp?)

theorem stamps_cameraActions (hlaid : Laid p d) (driven : Option String) (origin : α × α) :
    Rising (stamps ((cameraActions p driven origin).map Action.toValue)) ∧
      ∀ s ∈ stamps ((cameraActions p driven origin).map Action.toValue),
        (0 ≤ s.time ∧ s.time ≤ d) ∧ p.camera = true ∧ driven = some s.element ∧
          s.property ∈ Camera.properties := by
  rw [stamps_map_toValue]
  unfold cameraActions
  split
  · rename_i id
    split
    · rename_i hcamera
      refine ⟨(hlaid.camera id origin).1, fun s hs => ?_⟩
      obtain ⟨htimed, hid, hproperty⟩ := (hlaid.camera id origin).2 s hs
      exact ⟨htimed, hcamera, by rw [hid], hproperty⟩
    · exact ⟨List.Pairwise.nil, by simp⟩
  · exact ⟨List.Pairwise.nil, by simp⟩

namespace Tracked

variable {s : Progress α}

/-- The wrapper comes before the fragments, and the anchor is one of their elements. -/
theorem number_of_driven (hs : Tracked p d low wrapper s)
    (hwrapper : ∀ id, wrapper = some id → ∃ k, k ≤ low ∧ id = Placeholder.id k) {id : String}
    (h : wrapper.or (s.anchor.map (·.1)) = some id) :
    ∃ k, k ≤ s.issued ∧ id = Placeholder.id k := by
  rcases Option.or_eq_some_iff.1 h with hwrap | ⟨-, hanchor⟩
  · obtain ⟨k, hk, hid⟩ := hwrapper id hwrap
    exact ⟨k, hk.trans hs.low_le, hid⟩
  · obtain ⟨anchor, ha, rfl⟩ := Option.map_eq_some_iff.1 hanchor
    obtain ⟨k, -, hk, hid⟩ := hs.anchor anchor ha
    exact ⟨k, hk, hid⟩

/-- The camera moves a wrapper that nothing else moves, or the anchor where it is free. -/
theorem separate_camera (hs : Tracked p d low wrapper s)
    (hwrapper : ∀ id, wrapper = some id → ∃ k, k ≤ low ∧ id = Placeholder.id k) {ts : List Stamp}
    (hts : ∀ t ∈ ts, p.camera = true ∧ wrapper.or (s.anchor.map (·.1)) = some t.element ∧
      t.property ∈ Camera.properties) :
    ∀ part ∈ s.parts, Separate (stamps part.actions) ts := by
  intro part hpart stamp hstamp t ht ⟨hsameElement, hsameProperty⟩
  obtain ⟨hcamera, hdriven, hproperty⟩ := hts t ht
  rcases Option.or_eq_some_iff.1 hdriven with hwrap | ⟨hnone, hanchor⟩
  · obtain ⟨j, hlow, -, hid⟩ := (hs.parts part hpart).within stamp hstamp
    obtain ⟨k, hk, hid'⟩ := hwrapper _ hwrap
    have : j = k := Placeholder.id_injective (hid.symm.trans (hsameElement.trans hid'))
    omega
  · obtain ⟨anchor, ha, heq⟩ := Option.map_eq_some_iff.1 hanchor
    refine hs.free hnone hcamera anchor ha part hpart stamp hstamp ?_ (hsameProperty ▸ hproperty)
    rw [heq, hsameElement]

end Tracked

theorem stamps_of_mem_cameraSteps {camera : List (Value α)} {step : PlanStep α}
    (h : step ∈ cameraSteps (wrapperActions wrapper) camera) :
    stamps step.actions = stamps camera := by
  rw [List.mem_singleton.1 (List.mem_ite_nil_left.1 h).2]
  simp only [stamps_append, stamps_wrapperActions, List.nil_append]

theorem stamps_of_mem_weatherSteps {weather : List (Value α)} {step : PlanStep α}
    (h : step ∈ weatherSteps p weather) : stamps step.actions = stamps weather := by
  rw [List.mem_singleton.1 (List.mem_ite_nil_left.1 h).2]

omit [Scalar α] in
theorem pairwise_cameraSteps (R : PlanStep α → PlanStep α → Prop)
    (wrapping camera : List (Value α)) : (cameraSteps wrapping camera).Pairwise R := by
  unfold cameraSteps
  split
  · exact List.Pairwise.nil
  · exact List.pairwise_singleton _ _

omit [Scalar α] in
theorem pairwise_weatherSteps (R : PlanStep α → PlanStep α → Prop) (p : Plan α)
    (weather : List (Value α)) : (weatherSteps p weather).Pairwise R := by
  unfold weatherSteps
  split
  · exact List.Pairwise.nil
  · exact List.pairwise_singleton _ _

/-- The steps of a composition hold its keyframes in the same order. -/
theorem stamps_finish (p : Plan α) (wrapper : Option String) (s : Progress α) :
    stamps (finish p wrapper s).actions =
      (finish p wrapper s).steps.flatMap fun step => stamps step.actions := by
  obtain ⟨origin, camera, weather, -, -, -, hactions, hsteps⟩ := finish_eq p wrapper s
  have hcamera : (cameraSteps (wrapperActions wrapper) camera).flatMap
      (fun step => stamps step.actions) = stamps camera := by
    cases camera with
    | nil => rfl
    | cons a as =>
        simp only [cameraSteps, List.isEmpty_cons, Bool.false_eq_true, if_false,
          List.flatMap_singleton, stamps_append, stamps_wrapperActions, List.nil_append]
  have hweather : (weatherSteps p weather).flatMap (fun step => stamps step.actions) =
      stamps weather := by
    cases weather <;> simp [weatherSteps, stamps]
  rw [hactions, hsteps, List.flatMap_append, List.flatMap_append, hcamera, hweather,
    stamps_append, stamps_append, stamps_append, stamps_wrapperActions, stamps_flatMap,
    List.nil_append]

/-- No two steps share a track, and within a step the keyframes rise from zero to `d` on every
track. -/
structure Timeline (d : Rat) (steps : List (PlanStep α)) : Prop where
  rising : ∀ step ∈ steps, Rising (stamps step.actions)
  timed : ∀ step ∈ steps, ∀ s ∈ stamps step.actions, 0 ≤ s.time ∧ s.time ≤ d
  separate : steps.Pairwise fun step later =>
    Separate (stamps step.actions) (stamps later.actions)

theorem timeline_finish {s : Progress α} (hlaid : Laid p d) (hs : Tracked p d low wrapper s)
    (hwrapper : ∀ id, wrapper = some id → ∃ k, k ≤ low ∧ id = Placeholder.id k) :
    Timeline d (finish p wrapper s).steps := by
  obtain ⟨origin, camera, weather, -, hcamera, hweather, -, hsteps⟩ := finish_eq p wrapper s
  obtain ⟨hrising, hstamps⟩ :=
    stamps_cameraActions hlaid (wrapper.or (s.anchor.map (·.1))) origin
  rw [← hcamera] at hrising hstamps
  have hfall : Charted d s.issued (Weather.issued p s.issued) (stamps weather) := by
    rw [hweather, stamps_map_toValue]
    exact hlaid.weather s.issued _ origin
  have hpartCamera := hs.separate_camera hwrapper fun t ht => (hstamps t ht).2
  have hcameraWeather : Separate (stamps camera) (stamps weather) := by
    refine Stamp.separate_of_element fun stamp hstamp t ht hsame => ?_
    obtain ⟨j, hj, hid⟩ := hs.number_of_driven hwrapper (hstamps stamp hstamp).2.2.1
    obtain ⟨k, hk, -, hid'⟩ := hfall.within t ht
    have : j = k := Placeholder.id_injective (hid.symm.trans (hsame.trans hid'))
    omega
  rw [hsteps]
  constructor
  case rising =>
    simp only [List.forall_mem_append]
    refine ⟨⟨fun part hpart => (hs.parts part hpart).rising, fun step hstep => ?_⟩,
      fun step hstep => ?_⟩
    · exact stamps_of_mem_cameraSteps hstep ▸ hrising
    · exact stamps_of_mem_weatherSteps hstep ▸ hfall.rising
  case timed =>
    simp only [List.forall_mem_append]
    refine ⟨⟨fun part hpart => (hs.parts part hpart).timed, fun step hstep => ?_⟩,
      fun step hstep => ?_⟩
    · exact stamps_of_mem_cameraSteps hstep ▸ fun t ht => (hstamps t ht).1
    · exact stamps_of_mem_weatherSteps hstep ▸ hfall.timed
  case separate =>
    rw [List.pairwise_append, List.pairwise_append]
    refine ⟨⟨hs.separate, pairwise_cameraSteps _ _ _, fun part hpart step hstep => ?_⟩,
      pairwise_weatherSteps _ _ _, fun step hstep later hlater => ?_⟩
    · exact stamps_of_mem_cameraSteps hstep ▸ hpartCamera part hpart
    · rw [stamps_of_mem_weatherSteps hlater]
      rcases List.mem_append.1 hstep with hpart | hcam
      · exact (hs.parts step hpart).separate hfall
      · exact stamps_of_mem_cameraSteps hcam ▸ hcameraWeather

/-- What is composed of traced fragments has its keyframes in time: none of its steps moves what
another one moves. -/
theorem timeline_compose {fs : List (Fragment α)} {n : Nat} {c : Composition α}
    (h : compose p fs n = .ok c) (hfs : ∀ f ∈ fs, Traced d f) (hlaid : Laid p d) :
    Timeline d c.steps ∧
      stamps c.actions = c.steps.flatMap fun step => stamps step.actions := by
  obtain ⟨wrapped, s, hwrapped, -, hjoin, -, rfl⟩ := compose_eq_ok_iff.1 h
  have hfirst : Tracked p d (firstNumber wrapped n) (wrapperId? wrapped n)
      { issued := firstNumber wrapped n } :=
    ⟨by simp, List.Pairwise.nil, by simp, Nat.le_refl _, by simp⟩
  have htracked := tracked_joinAll hjoin hfirst hfs fun hnone _ => by
    cases wrapped with
    | false => exact hwrapped
    | true => simp [wrapperId?] at hnone
  refine ⟨timeline_finish hlaid htracked fun id hid => ?_, stamps_finish _ _ _⟩
  cases wrapped with
  | false => simp [wrapperId?] at hid
  | true => exact ⟨n + 1, Nat.le_refl _, (Option.some.inj hid).symm⟩

end Storyboard.Composition
