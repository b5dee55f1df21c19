import Storyboard.Proofs.Compiler.Course
import Storyboard.Proofs.Draft.Canvas
import Storyboard.Proofs.Quality
/-!
# Answers are coherent

Every draft is grounded, the gate drops no new element, and composing moves references along with
elements.  So whatever is answered, the actions refer to nothing but the canvas and their own
elements, number these in rising order, and keep properties and times in range.
-/

namespace Storyboard.Compiler

open Composition (Anchored Rooted offsets firstNumber)
open Gate (Steady Spares)
open Placeholder (ceiling)

variable {α : Type}

theorem addedIds_fragment {n count : Nat} {d : Draft α} (h : Adds n count d.actions) :
    addedIds d.fragment.actions = (List.range' (n + 1) count).map Placeholder.id := by
  rw [Draft.fragment, addedIds_map_toValue, h]

theorem rooted_fragment {known : List String} {n : Nat} {d : Draft α}
    (h : d.Grounded known n) : Rooted d.fragment := by
  intro root hroot
  rw [Draft.fragment, addedIds_map_toValue]
  exact h.rooted root (Option.filter_eq_some_iff.1 hroot).1

variable [Scalar α]

/-- A fragment that passed the gate and refers to known elements and its own. -/
structure Settled (known : List String) (f : Fragment Float) : Prop where
  closed : Closed known f.actions
  ids : ∃ count, addedIds f.actions = (List.range' 1 count).map Placeholder.id
  steady : ∀ a ∈ f.actions, Steady a
  rooted : Rooted f

theorem spares_of_grounded {known : List String} {n : Nat} {d : Draft α}
    (h : d.Grounded known n) : ∀ a ∈ d.fragment.actions, Spares a := by
  intro a ha
  obtain ⟨b, hb, rfl⟩ := List.mem_map.1 ha
  refine Gate.spares_toValue fun id hid => ?_
  obtain ⟨count, -, hadds⟩ := h.adds
  have hmem := List.mem_filterMap.2 ⟨b, hb, hid⟩
  rw [hadds] at hmem
  obtain ⟨k, -, rfl⟩ := List.mem_map.1 hmem
  exact Gate.isNamed_id k

/-- A grounded draft that passes the gate is settled. -/
theorem settled_of_gated {known : List String} {d : Draft Float} {f : Fragment Float}
    {whole : Bool} (hd : d.Grounded known 0) (h : gated d.fragment = .ok (f, whole)) :
    Settled known f := by
  obtain ⟨r, hr, rfl⟩ := gated_eq_ok h
  have hspares := spares_of_grounded hd
  have hids := Gate.addedIds_of_passFrom hr hspares
  obtain ⟨count, -, hadds⟩ := hd.adds
  refine ⟨Gate.closed_of_passFrom hr hspares hd.closed, ⟨count, ?_⟩,
    Gate.steady_of_passFrom hr, fun root hroot => ?_⟩
  · show addedIds r.actions = _
    rw [hids, addedIds_fragment hadds]
  · show root ∈ addedIds r.actions
    rw [hids]
    exact rooted_fragment hd root hroot

theorem settled_of_gatedAll {known : List String} {ds : List (Draft Float)}
    {fs : List (Fragment Float)} {whole : Bool} (hds : ∀ d ∈ ds, d.Grounded known 0)
    (h : gatedAll ds = .ok (fs, whole)) : ∀ f ∈ fs, Settled known f := by
  intro f hf
  obtain ⟨d, hd, _, hgated⟩ := (gated_of_gatedAll h).2 f hf
  exact settled_of_gated (hds d hd) hgated

/-- A sequence is coherent, and the numbers of its ids can be written. -/
structure Sound (known : List String) (actions : List (Value Float)) : Prop where
  coherent : Coherent known actions
  writable : ∀ k, Placeholder.id k ∈ addedIds actions → k < ceiling

theorem sound_nil (known : List String) : Sound known [] :=
  ⟨coherent_of_steady trivial ⟨[], rfl, List.Pairwise.nil⟩ (by simp), by simp [addedIds]⟩

theorem faultless_of_sound {known : List String} {actions : List (Value Float)}
    (h : Sound known actions) : Faultless known actions :=
  Quality.faultless_of_coherent h.coherent h.writable

/-- Few new elements that are numbered from one are sound by themselves. -/
theorem sound_of_gated {known : List String} {d : Draft Float} {r : Passage Float}
    (hd : d.Grounded known 0) (hfew : d.issued < ceiling)
    (h : Gate.passAll d.fragment.actions = .ok r) : Sound known r.actions := by
  have hspares := spares_of_grounded hd
  obtain ⟨count, hissued, hadds⟩ := hd.adds
  have hids : addedIds r.actions = (List.range' 1 count).map Placeholder.id := by
    rw [Gate.addedIds_of_passFrom h hspares, addedIds_fragment hadds]
  refine ⟨coherent_of_steady (Gate.closed_of_passFrom h hspares hd.closed)
    ⟨_, hids, List.pairwise_lt_range'⟩ (Gate.steady_of_passFrom h), fun k hk => ?_⟩
  rw [hids] at hk
  obtain ⟨j, hj, heq⟩ := List.mem_map.1 hk
  have := List.mem_range'_1.1 hj
  rw [← Placeholder.id_injective heq]
  omega

/-- What is composed of settled fragments numbers its elements in rising order. -/
theorem rising_of_compose {p : Plan Float} {known : List String} {fs : List (Fragment Float)}
    {c : Composition Float} (l : Composition.Layout p fs 0 c)
    (hsettled : ∀ f ∈ fs, Settled known f) :
    ∃ ks : List Nat, addedIds c.actions = ks.map Placeholder.id ∧ ks.Pairwise (· < ·) ∧
      ∀ k ∈ ks, k < ceiling := by
  refine l.addedIds_eq (fun f hf => ?_) fun f hf => ?_
  · obtain ⟨count, hcount⟩ := (hsettled f hf).ids
    rw [hcount]
    exact ⟨0 + count, Composition.risesWithin_of_range 0 count⟩
  · obtain ⟨count, hcount⟩ := (hsettled f hf).ids
    rw [hcount]
    exact Composition.numbered_map_id _

/-- What is composed of settled fragments is sound once it passed the gate. -/
theorem sound_of_compose {p : Plan Float} {known : List String} {fs : List (Fragment Float)}
    {c : Composition Float} {r : Passage Float} (l : Composition.Layout p fs 0 c)
    (hanchored : ∀ part ∈ offsets (firstNumber l.wrapped 0) fs, Anchored known part)
    (hsettled : ∀ f ∈ fs, Settled known f) (h : Gate.passAll c.actions = .ok r) :
    Sound known r.actions := by
  have hspares := l.spares fun f hf => (hsettled f hf).steady
  have hids := Gate.addedIds_of_passFrom h hspares
  obtain ⟨ks, hks, hrise, hceiling⟩ := rising_of_compose l hsettled
  have hclosed := l.closed hanchored fun f hf => (hsettled f hf).rooted
  refine ⟨coherent_of_steady (Gate.closed_of_passFrom h hspares hclosed)
    ⟨ks, by rw [hids, hks], hrise⟩ (Gate.steady_of_passFrom h), fun k hk => ?_⟩
  rw [hids, hks] at hk
  obtain ⟨j, hj, heq⟩ := List.mem_map.1 hk
  rw [← Placeholder.id_injective heq]
  exact hceiling j hj

/-! ## Every way to an answer -/

theorem lt_ceiling_of_le {n : Nat} (h : n ≤ 4) : n < ceiling := by
  have := Placeholder.thousand_le_ceiling
  omega

theorem sound_of_safeScene {p : Plan Float} {known : List String}
    {steps : List (PlanStep Float)} {o : Outcome Float} (h : safeScene p steps = .ok o) :
    Sound known o.actions := by
  obtain ⟨r, hr, ho⟩ := map_eq_ok_iff.1 h
  have hsound : Sound [] r.actions :=
    sound_of_gated (Scene.grounded_generic p 0) (lt_ceiling_of_le (n := 4) (by omega)) hr
  split at ho
  · rw [← ho]
    exact sound_nil known
  · rw [← ho]
    exact ⟨{ hsound.coherent with
      closed := closed_mono (by simp) hsound.coherent.closed }, hsound.writable⟩

theorem sound_of_compilePhoto {p : Plan Float} {o : Outcome Float}
    (h : compilePhoto p = .ok o) : Sound p.canvas o.actions := by
  obtain ⟨f, whole, hf, ⟨-, hsafe⟩ | ⟨-, rfl⟩⟩ := compilePhoto_eq_ok_iff.1 h
  · exact sound_of_safeScene hsafe
  · obtain ⟨r, hr, rfl⟩ := gated_eq_ok hf
    exact sound_of_gated (Photo.grounded_build p 0)
      (lt_ceiling_of_le (by simpa using Photo.issued_build_le p 0)) hr

theorem grounded_of_wanted {p : Plan α} {d : Draft α} (h : d ∈ wanted p) :
    d.Grounded [] 0 := by
  rcases mem_wanted h with hd | rfl | rfl
  · exact Scene.grounded_of_build? hd
  · exact Rig.grounded_animated p 0
  · exact Shape.grounded_build p 0

/-- A plan that wants a scene has an archetype with one. -/
theorem exists_builder {settings : Settings α} {r : Request α} {p : Plan α}
    (h : Plan.ofRequest settings r = .ok p) (hscene : p.wantsScene = true) :
    ∃ make, Scene.builder? (α := α) p.archetype = some make := by
  obtain ⟨f, -, rfl⟩ := map_eq_ok_iff.1 h
  dsimp only at hscene ⊢
  rw [if_pos hscene]
  cases hfirst : Intent.archetypes.first? f with
  | none => exact ⟨_, rfl⟩
  | some a =>
      have hlisted : ∀ rule ∈ Intent.archetypes, (Scene.builder? (α := α) rule.1).isSome = true := by
        simp [Intent.archetypes, Scene.builder?]
      obtain ⟨rule, hrule, rfl⟩ := Option.map_eq_some_iff.1 hfirst
      exact Option.isSome_iff_exists.1 (hlisted rule (List.mem_of_find?_eq_some hrule))

theorem wanted_ne_nil {settings : Settings α} {r : Request α} {p : Plan α}
    (h : Plan.ofRequest settings r = .ok p)
    (hwants : p.wantsScene = true ∨ p.wantsCharacter = true ∨ p.wantsPath = true) :
    wanted p ≠ [] := by
  unfold wanted
  rcases hwants with hscene | hcharacter | hpath
  · obtain ⟨make, hmake⟩ := exists_builder h hscene
    simp [hscene, Scene.build?, hmake]
  · simp [hcharacter]
  · simp [hpath]

/-- An edit has no root, so nothing is wrapped and it keeps its numbers. -/
theorem offsets_of_rootless {p : Plan α} {f : Fragment α} {c : Composition α}
    (l : Composition.Layout p [f] 0 c) (hroot : f.root = none) :
    offsets (firstNumber l.wrapped 0) [f] = [(0, f)] := by
  have hneeds := l.needsWrapper_eq
  simp only [Composition.needsWrapper, Fragment.root?, hroot, List.find?_cons, Option.filter_none,
    Option.isSome_none, List.find?_nil, Except.ok.injEq] at hneeds
  simp [← hneeds, firstNumber, offsets]

theorem sound_of_compileScene {p : Plan Float} {o : Outcome Float}
    (h : compileScene p = .ok o) : Sound p.canvas o.actions := by
  obtain ⟨ds, fs, whole, c, r, hds, hfs, hc, hr, ho⟩ := compileScene_eq_ok_iff.1 h
  obtain ⟨l⟩ := Composition.compose_layout hc
  have hsound : Sound p.canvas r.actions := by
    rcases drafts_cases hds with ⟨d, hd, rfl⟩ | rfl
    · have hgrounded := Edit.grounded_of_build hd
      have hsettled := settled_of_gatedAll (by simpa using hgrounded) hfs
      obtain ⟨f, hf, rfl⟩ := gatedAll_singleton_eq_ok_iff.1 hfs
      have hroot : f.root = none := by
        obtain ⟨r', -, rfl⟩ := gated_eq_ok hf
        exact Edit.root_of_build hd
      refine sound_of_compose l (fun part hpart => ?_) hsettled hr
      rw [offsets_of_rootless l hroot, List.mem_singleton] at hpart
      rw [hpart]
      exact (hsettled f (by simp)).closed
    · have hsettled := settled_of_gatedAll (fun d hd => grounded_of_wanted hd) hfs
      refine sound_of_compose l (fun part hpart => ?_) (fun f hf => ?_) hr
      · exact Composition.anchored_of_closed
          (hsettled part.2 (Composition.mem_of_mem_offsets hpart)).closed
      · exact { hsettled f hf with closed := closed_mono (by simp) (hsettled f hf).closed }
  obtain ⟨-, hsafe⟩ | ⟨-, rfl⟩ := ho
  · exact sound_of_safeScene hsafe
  · exact hsound

theorem sound_of_compile {p : Plan Float} {o : Outcome Float} (h : compile p = .ok o) :
    Sound p.canvas o.actions := by
  unfold compile at h
  split at h
  · exact sound_of_compilePhoto h
  · exact sound_of_compileScene h

end Storyboard.Compiler

namespace Storyboard

/-- The ids of the selected element and of those on the canvas. -/
def Request.canvas (r : Request Float) : List String :=
  (r.selected.toList ++ r.existing).map (·.id)

/-- The ids on the canvas of a request given as any value; none when it is no request. -/
def Request.canvasOf (value : Value Float) : List String :=
  match Request.ofValue value with
  | .ok r => r.canvas
  | .error _ => []

theorem Plan.canvas_of_ofRequest {settings : Settings Float} {r : Request Float} {p : Plan Float}
    (h : Plan.ofRequest settings r = .ok p) : p.canvas = r.canvas := by
  obtain ⟨f, -, rfl⟩ := map_eq_ok_iff.1 h
  rfl

namespace Compiler

theorem sound_answer (settings : Settings Float) (r : Request Float) :
    Sound r.canvas (answer settings r).actions := by
  unfold answer
  split
  · rename_i o ho
    obtain ⟨p, hp, hcompile⟩ := bind_eq_ok_iff.1 ho
    rw [← Plan.canvas_of_ofRequest hp]
    exact sound_of_compile hcompile
  · exact sound_nil _

/-- The actions that answer a request, given as a record or as any value, are coherent over the
canvas of the request, and fail no check on the whole sequence but for the one that there are
actions. -/
theorem generate_coherent (settings : Settings Float) :
    (∀ r : Request Float, Coherent r.canvas (answer settings r).actions ∧
      Faultless r.canvas (answer settings r).actions) ∧
    ∀ request : Value Float,
      Coherent (Request.canvasOf request) (generate settings request).actions ∧
        Faultless (Request.canvasOf request) (generate settings request).actions := by
  have hanswer : ∀ r : Request Float, Coherent r.canvas (answer settings r).actions ∧
      Faultless r.canvas (answer settings r).actions := fun r =>
    ⟨(sound_answer settings r).coherent, faultless_of_sound (sound_answer settings r)⟩
  refine ⟨hanswer, fun request => ?_⟩
  unfold generate Request.canvasOf
  split
  · rename_i r hr
    rw [hr]
    exact hanswer r
  · rename_i e he
    rw [he]
    exact ⟨(sound_nil []).coherent, faultless_of_sound (sound_nil [])⟩

end Compiler

end Storyboard
