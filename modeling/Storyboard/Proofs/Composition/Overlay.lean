import Storyboard.Proofs.Composition.Layout
/-!
# Wrapper, camera and weather

What is laid over the fragments of a composition: which elements it adds, and what it refers to.
-/

namespace Storyboard.Composition

variable {α : Type}

theorem le_issued (p : Plan α) (n : Nat) :
    n ≤ Weather.issued p n ∧ Weather.issued p n ≤ n + 17 := by
  unfold Weather.issued
  cases p.weather <;> simp [Weather.particles] <;> omega

variable [Scalar α]

theorem addedIds_wrapperActions (wrapper : Option String) :
    addedIds (wrapperActions (α := α) wrapper) = wrapper.toList := by
  cases wrapper with
  | none => rfl
  | some w =>
      have hadded : ((Action.group w 0.0 0.0 .none : Action α)).added? = some w := rfl
      simp [wrapperActions, addedIds, hadded]

theorem closed_wrapperActions (known : List String) (wrapper : Option String) :
    Closed known (wrapperActions (α := α) wrapper) := by
  cases wrapper with
  | none => trivial
  | some w =>
      refine closed_cons_toValue.2 ⟨fun s hs => ?_, trivial⟩
      simp [Action.group, Action.referred] at hs

theorem added?_of_mem_cameraActions {p : Plan α} {driven : Option String} {origin : α × α}
    {a : Action α} (h : a ∈ cameraActions p driven origin) : a.added? = none := by
  unfold cameraActions at h
  split at h
  · split at h
    · simp only [Camera.motion, List.mem_cons, List.not_mem_nil, or_false] at h
      rcases h with rfl | rfl | rfl | rfl | rfl | rfl <;> rfl
    · simp at h
  · simp at h

theorem addedIds_cameraActions (p : Plan α) (driven : Option String) (origin : α × α) :
    addedIds ((cameraActions p driven origin).map Action.toValue) = [] := by
  rw [addedIds_map_toValue, List.filterMap_eq_nil_iff]
  exact fun a ha => added?_of_mem_cameraActions ha

theorem closed_cameraActions {p : Plan α} {known : List String} {driven : Option String}
    {origin : α × α} (h : ∀ s, driven = some s → s ∈ known) :
    Closed known ((cameraActions p driven origin).map Action.toValue) := by
  unfold cameraActions
  split
  · rename_i s
    have hs := h s rfl
    split
    · simp [Camera.motion, closed_cons_toValue, Closed, hs]
    · trivial
  · trivial

/-- The weather adds the numbers that it gives out, in order. -/
theorem adds_overlay (p : Plan α) (n : Nat) (parent : Option String) (origin : α × α) :
    Adds n (Weather.issued p n - n) (Weather.overlay p n parent origin) := by
  unfold Weather.overlay Weather.issued
  cases p.weather with
  | none => simpa using adds_nil n
  | rain =>
      have hdrop : ∀ k, Adds (n + 1 + 1 * k) 1
          (Weather.drop p (Placeholder.id (n + 1)) (Placeholder.id (n + 2 + k)) k) := by
        intro k
        refine adds_cons ?_ (adds_cons_none rfl (adds_cons_none rfl (adds_nil _)))
        rw [Action.added?_under, Action.rect, Action.added?_add]
        congr 2
        omega
      have hall := adds_flatMap hdrop Weather.rain.particles
      have hcount : n + 1 + Weather.rain.particles - n = 1 * Weather.rain.particles + 1 := by
        omega
      simp only [reduceCtorEq, if_false]
      rw [hcount]
      exact adds_cons rfl hall
  | snow =>
      have hflake : ∀ k, Adds (n + 1 + 1 * k) 1
          (Weather.flake p (Placeholder.id (n + 1)) (Placeholder.id (n + 2 + k)) k) := by
        intro k
        refine adds_cons ?_ (adds_cons_none rfl (adds_cons_none rfl (adds_cons_none rfl
          (adds_cons_none rfl (adds_nil _)))))
        rw [Action.added?_under, Action.circle, Action.added?_add]
        congr 2
        omega
      have hall := adds_flatMap hflake Weather.snow.particles
      have hcount : n + 1 + Weather.snow.particles - n = 1 * Weather.snow.particles + 1 := by
        omega
      simp only [reduceCtorEq, if_false]
      rw [hcount]
      exact adds_cons rfl hall

theorem closed_overlay {p : Plan α} {n : Nat} {known : List String} {parent : Option String}
    {origin : α × α} (h : ∀ s, parent = some s → s ∈ known) :
    Closed known ((Weather.overlay p n parent origin).map Action.toValue) := by
  have hgroup : ∀ s ∈ (Action.group (Placeholder.id (n + 1)) (-origin.1) (-origin.2)
      (.ofOption parent) : Action α).referred, s ∈ known := by
    intro s hs
    cases parent with
    | none => simp [Action.group, Parent.ofOption, Action.referred] at hs
    | some t =>
        simp only [Action.group, Parent.ofOption, Action.referred, List.mem_singleton] at hs
        rw [hs]
        exact h t rfl
  unfold Weather.overlay
  cases p.weather with
  | none => trivial
  | rain =>
      rw [List.map_cons, closed_cons_toValue, List.map_flatMap]
      refine ⟨hgroup, closed_flatMap fun k _ => ?_⟩
      simp [Weather.drop, closed_cons_toValue, Closed, Action.rect, Action.group]
  | snow =>
      rw [List.map_cons, closed_cons_toValue, List.map_flatMap]
      refine ⟨hgroup, closed_flatMap fun k _ => ?_⟩
      simp [Weather.flake, closed_cons_toValue, Closed, Action.circle, Action.group]

end Storyboard.Composition
