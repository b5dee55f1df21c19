import Storyboard.Edit
import Storyboard.Photo
import Storyboard.Proofs.Draft.Grounded
import Storyboard.Proofs.Except
/-!
# Drafts that stand on the canvas

Photos and edits refer to elements of the canvas besides their own: to the image that moves, or to
the elements that the prompt changes.
-/

namespace Storyboard

open Storyboard.Action

variable {α : Type}

/-- The ids of the selected element and of those on the canvas. -/
def Plan.canvas (p : Plan α) : List String := (p.selected.toList ++ p.existing).map (·.id)

theorem Photo.mem_of_found {p : Plan α} {e : Element α} (h : found? p = some e) :
    e ∈ p.selected.toList ++ p.existing := by
  rcases Option.or_eq_some_iff.1 h with hselected | ⟨-, hexisting⟩
  · have hmem := (Option.filter_eq_some_iff.1 hselected).1
    simp [hmem]
  · exact List.mem_append_right _ (List.mem_of_find?_eq_some hexisting)

theorem Photo.mem_canvas_of_found {p : Plan α} {e : Element α} (h : found? p = some e) :
    e.id ∈ p.canvas :=
  List.mem_map_of_mem (mem_of_found h)

namespace Edit

theorem mentions_repaint {f : Features α} {a : Action α} (h : a ∈ (repaint f).1) :
    a.added? = none ∧ ∀ s ∈ a.referred, s ∈ ([] : List String) := by
  unfold repaint at h
  split at h
  · split at h
    · rw [List.mem_singleton] at h
      subst h
      simp [added?, referred]
    · simp at h
  · simp at h

theorem mem_update?_iff {id : String} {props : Fields α} {a : Action α} :
    a ∈ update? id props ↔ props ≠ [] ∧ a = .update id props := by
  unfold update?
  cases props <;> simp

theorem mentions_update? {id : String} {props : Fields α} {a : Action α}
    (h : a ∈ update? id props) : a.added? = none ∧ ∀ s ∈ a.referred, s = id := by
  obtain ⟨-, rfl⟩ := mem_update?_iff.1 h
  simp [added?, referred]

/-- Actions that add nothing and refer to the canvas are grounded. -/
theorem grounded_drafted {p : Plan α} {n : Nat} {notes : List String} {as : List (Action α)}
    (h : ∀ a ∈ as, a.added? = none ∧ ∀ s ∈ a.referred, s ∈ p.canvas) :
    (drafted notes as n).Grounded p.canvas n where
  adds := ⟨0, rfl, adds_of_none fun a ha => (h a ha).1⟩
  closed := closed_of_referred fun a ha => (h a ha).2
  rooted := by rintro root ⟨⟩

end Edit

namespace Selection

theorem best_mem (better : α → α → Bool) (first : Element α × α) (rest : List (Element α × α)) :
    best better first rest ∈ (first :: rest).map (·.1) := by
  induction rest generalizing first with
  | nil => simp [best]
  | cons next rest ih =>
      rw [best]
      split
      · exact List.mem_cons_of_mem _ (ih next)
      · rcases List.mem_cons.1 (ih first) with h | h
        · simp [h]
        · exact List.mem_cons_of_mem _ (List.mem_cons_of_mem _ h)

theorem mem_of_mem_candidates {f : Features α} {es : List (Element α)} {e : Element α}
    (h : e ∈ candidates f es) : e ∈ es := by
  unfold candidates at h
  split at h
  · split at h
    · exact h
    · exact (List.mem_filter.1 h).1
  · exact h

end Selection

variable [Scalar α]

/-! ## Photos -/

namespace Photo

theorem target_id (p : Plan α) (share : α) : (target p share).id = (found? p).map (·.id) := by
  simp only [target]
  split <;> rfl

/-- How many elements a pan adds: the image unless it is found, and what the prompt mentions. -/
def panCount (p : Plan α) : Nat :=
  (if (found? p).isNone then 1 else 0) + (if p.mentions .parallax then 1 else 0)
    + (if p.mentions .silhouette then 1 else 0)

theorem issued_pan (p : Plan α) (n : Nat) : (pan p n).issued = n + panCount p := by
  have hid := target_id p 0.7
  rcases hfound : found? p with _ | e <;>
    cases hparallax : p.mentions .parallax <;> cases hsilhouette : p.mentions .silhouette <;>
    simp only [hfound, Option.map_none, Option.map_some] at hid <;>
    simp [panCount, pan, place, hid, hfound, hparallax, hsilhouette]

theorem grounded_pan (p : Plan α) (n : Nat) : (pan p n).Grounded p.canvas n := by
  have hid := target_id p 0.7
  have hcanvas := @mem_canvas_of_found _ p
  rcases hfound : found? p with _ | e <;>
    cases hparallax : p.mentions .parallax <;> cases hsilhouette : p.mentions .silhouette <;>
    simp only [hfound, Option.map_none, Option.map_some, Option.some.injEq] at hid hcanvas <;>
    refine ⟨⟨panCount p, issued_pan p n, ?_⟩, ?_, by rintro root ⟨⟩⟩ <;>
    simp [panCount, pan, place, hid, hfound, hparallax, hsilhouette, Adds, closed_cons_toValue,
      Closed, Action.image, circle, path, List.filterMap_cons, List.range'_succ, hcanvas]

/-- How many elements the layered motion adds: a backdrop and the image unless it is found, the
overlay, and the frame that the prompt mentions. -/
def layersCount (p : Plan α) : Nat :=
  (if (found? p).isNone then 2 else 0) + 1
    + (if p.features.any [.boundingBox, .subject] then 1 else 0)

theorem issued_layers (p : Plan α) (n : Nat) : (layers p n).issued = n + layersCount p := by
  have hid := target_id p 0.75
  rcases hfound : found? p with _ | e <;>
    cases hframe : p.features.any [.boundingBox, .subject] <;>
    simp only [hfound, Option.map_none, Option.map_some] at hid <;>
    simp [layersCount, layers, place, hid, hfound, hframe]

theorem grounded_layers (p : Plan α) (n : Nat) : (layers p n).Grounded p.canvas n := by
  have hid := target_id p 0.75
  have hcanvas := @mem_canvas_of_found _ p
  rcases hfound : found? p with _ | e <;>
    cases hframe : p.features.any [.boundingBox, .subject] <;>
    simp only [hfound, Option.map_none, Option.map_some, Option.some.injEq] at hid hcanvas <;>
    refine ⟨⟨layersCount p, issued_layers p n, ?_⟩, ?_, by rintro root ⟨⟩⟩ <;>
    simp [layersCount, layers, place, hid, hfound, hframe, Adds, closed_cons_toValue, Closed,
      Action.image, rect, List.filterMap_cons, List.range'_succ, hcanvas]

theorem grounded_build (p : Plan α) (n : Nat) : (build p n).Grounded p.canvas n := by
  unfold build
  split
  · exact grounded_layers p n
  · exact grounded_pan p n

theorem issued_build_le (p : Plan α) (n : Nat) : (build p n).issued ≤ n + 4 := by
  unfold build
  split
  · rw [issued_layers]
    unfold layersCount
    split <;> split <;> omega
  · rw [issued_pan]
    unfold panCount
    split <;> split <;> split <;> omega

end Photo

/-! ## Edits -/

namespace Selection

theorem map_fst_of_measured {r : Ranking} {es : List (Element α)} {ms : List (Element α × α)}
    (h : measured r es = .ok ms) : ms.map (·.1) = es := by
  induction es generalizing ms with
  | nil =>
      simp only [measured, Except.ok.injEq] at h
      simp [← h]
  | cons e es ih =>
      simp only [measured, bind_eq_ok_iff, pure_eq_ok, Except.ok.injEq] at h
      obtain ⟨x, -, rest, hrest, rfl⟩ := h
      simp [ih hrest]

theorem mem_of_pick {f : Features α} {es : List (Element α)} {e : Element α}
    (h : pick f es = .ok (some e)) : e ∈ es := by
  simp only [pick, bind_eq_ok_iff] at h
  obtain ⟨ms, hms, h⟩ := h
  cases ms with
  | nil => simp at h
  | cons first rest =>
      simp only [pure_eq_ok, Except.ok.injEq, Option.some.injEq] at h
      have hmem := best_mem (better (ranking f)) first rest
      rw [h, map_fst_of_measured hms] at hmem
      exact mem_of_mem_candidates hmem

end Selection

namespace Animation

variable {m : Animation} {id : String} {d : α} {f : Features α} {base : α × α}
  {goal : Option (α × α)} {a : Action α}

theorem keyframe_of_mem_moving (h : a ∈ moving id d f base goal) :
    ∃ k, a = .keyframe k ∧ k.element = id := by
  unfold moving at h
  split at h
  · simp only [List.mem_cons, List.not_mem_nil, or_false] at h
    rcases h with rfl | rfl | rfl | rfl <;> exact ⟨_, rfl, rfl⟩
  · simp only [List.mem_append, List.mem_cons, List.not_mem_nil, or_false] at h
    rcases h with (rfl | rfl) | h
    · exact ⟨_, rfl, rfl⟩
    · exact ⟨_, rfl, rfl⟩
    · split at h
      · simp only [List.mem_cons, List.not_mem_nil, or_false] at h
        rcases h with rfl | rfl <;> exact ⟨_, rfl, rfl⟩
      · simp only [List.mem_ite_nil_right, List.mem_cons, List.not_mem_nil, or_false] at h
        rcases h with ⟨-, rfl | rfl⟩ <;> exact ⟨_, rfl, rfl⟩

/-- The motions of an element set keyframes on it, and do nothing else. -/
theorem keyframe_of_mem (h : a ∈ m.keyframes id d f base goal) :
    ∃ k, a = .keyframe k ∧ k.element = id := by
  simp only [keyframes, List.mem_append, List.mem_ite_nil_right, List.mem_cons,
    List.not_mem_nil, or_false] at h
  rcases h with (((⟨-, h⟩ | ⟨-, h⟩) | ⟨-, h⟩) | ⟨-, h⟩) | ⟨-, h⟩
  · exact keyframe_of_mem_moving h
  · rcases h with rfl | rfl | rfl <;> exact ⟨_, rfl, rfl⟩
  · rcases h with rfl | rfl <;> exact ⟨_, rfl, rfl⟩
  · rcases h with rfl | rfl | rfl <;> exact ⟨_, rfl, rfl⟩
  · rcases h with rfl | rfl <;> exact ⟨_, rfl, rfl⟩

theorem mentions (h : a ∈ m.keyframes id d f base goal) :
    a.added? = none ∧ ∀ s ∈ a.referred, s = id := by
  obtain ⟨k, rfl, rfl⟩ := keyframe_of_mem h
  simp [added?, referred]

end Animation

namespace Edit

theorem mentions_changeAll {p : Plan α} {a : Action α} (h : a ∈ changeAll p) :
    a.added? = none ∧ ∀ s ∈ a.referred, s ∈ p.canvas := by
  obtain ⟨e, he, h⟩ := List.mem_flatMap.1 h
  have hcanvas : e.id ∈ p.canvas := List.mem_map_of_mem (List.mem_append_right _ he)
  have hone : a.added? = none ∧ ∀ s ∈ a.referred, s = e.id := by
    rcases List.mem_append.1 h with h | h
    · exact mentions_update? h
    · exact Animation.mentions h
  exact ⟨hone.1, fun s hs => hone.2 s hs ▸ hcanvas⟩

theorem mentions_change {p : Plan α} {e : Element α} {a : Action α} (h : a ∈ (change p e).1) :
    a.added? = none ∧ ∀ s ∈ a.referred, s = e.id := by
  rcases List.mem_append.1 h with h | h
  · exact mentions_update? h
  · exact Animation.mentions h

theorem grounded_forAll? {p : Plan α} {n : Nat} {d : Draft α} (h : forAll? p n = some d) :
    d.Grounded p.canvas n := by
  simp only [forAll?, Option.ite_none_right_eq_some, Option.some.injEq] at h
  obtain ⟨-, rfl⟩ := h
  refine grounded_drafted fun a ha => ?_
  rcases List.mem_append.1 ha with ha | ha
  · obtain ⟨hadded, hnone⟩ := mentions_repaint ha
    exact ⟨hadded, fun s hs => absurd (hnone s hs) (by simp)⟩
  · exact mentions_changeAll ha

theorem grounded_forOne {p : Plan α} {n : Nat} {e : Element α} (he : e.id ∈ p.canvas) :
    (forOne p n e).Grounded p.canvas n := by
  refine grounded_drafted fun a ha => ?_
  rcases List.mem_append.1 ha with ha | ha
  · obtain ⟨hadded, hnone⟩ := mentions_repaint ha
    exact ⟨hadded, fun s hs => absurd (hnone s hs) (by simp)⟩
  · obtain ⟨hadded, hone⟩ := mentions_change ha
    exact ⟨hadded, fun s hs => hone s hs ▸ he⟩

theorem fresh_eq_add (p : Plan α) (id : String) (index : Nat) :
    ∃ kind props, (fresh p id index).1 = .add kind id props .unstated := by
  unfold fresh
  dsimp only
  cases shapeKind p.features <;> exact ⟨_, _, rfl⟩

/-- A new element comes first, and its keyframes refer to nothing else. -/
theorem freshAnimated_eq (p : Plan α) (n index : Nat) :
    ∃ kind props frames, freshAnimated p n index =
        .add kind (Placeholder.id (n + 1 + index)) props .unstated :: frames ∧
      ∀ a ∈ frames, a.added? = none ∧ ∀ s ∈ a.referred, s = Placeholder.id (n + 1 + index) := by
  obtain ⟨kind, props, helement⟩ := fresh_eq_add p (Placeholder.id (n + 1 + index)) index
  have heq : freshAnimated p n index =
      (fresh p (Placeholder.id (n + 1 + index)) index).1
        :: (Animation.ofFeatures p.features false).keyframes (Placeholder.id (n + 1 + index))
          p.duration p.features (fresh p (Placeholder.id (n + 1 + index)) index).2 := rfl
  rw [helement] at heq
  exact ⟨kind, props, _, heq, fun a ha => Animation.mentions ha⟩

theorem grounded_forNew (p : Plan α) (n : Nat) : (forNew p n).Grounded p.canvas n := by
  have hone : ∀ i, Adds (n + 1 * i) 1 (freshAnimated p n i) := by
    intro i
    obtain ⟨kind, props, frames, heq, hframes⟩ := freshAnimated_eq p n i
    rw [heq]
    refine adds_cons ?_ (adds_of_none fun a ha => (hframes a ha).1)
    rw [added?_add]
    congr 2
    omega
  have hpainted : Adds n 0 (repaint p.features).1 :=
    adds_of_none fun a ha => (mentions_repaint ha).1
  have hcreated : Adds n (1 * p.features.count) (create p n).1 := adds_flatMap hone _
  refine ⟨⟨0 + 1 * p.features.count, ?_, adds_append hpainted hcreated⟩, ?_, by rintro root ⟨⟩⟩
  · show n + p.features.count = n + (0 + 1 * p.features.count)
    omega
  · show Closed p.canvas (((repaint p.features).1 ++ (create p n).1).map toValue)
    rw [List.map_append, closed_append]
    refine ⟨closed_of_referred fun a ha s hs => ?_, ?_⟩
    · exact absurd ((mentions_repaint ha).2 s hs) (by simp)
    · rw [create, List.map_flatMap]
      refine closed_flatMap fun i _ => ?_
      obtain ⟨kind, props, frames, heq, hframes⟩ := freshAnimated_eq p n i
      rw [heq]
      refine closed_cons_toValue.2 ⟨by simp, closed_of_referred fun a ha s hs => ?_⟩
      rw [(hframes a ha).2 s hs]
      simp

theorem mem_of_target? {e : Element α} (h : target? p = .ok (some e)) :
    e ∈ p.selected.toList ++ p.existing := by
  unfold target? at h
  split at h
  · rename_i e' hselected
    simp only [Except.ok.injEq, Option.some.injEq] at h
    simp [hselected, h]
  · exact List.mem_append_right _ (Selection.mem_of_pick h)

/-- An edit changes everything, makes new elements, or changes one element of the canvas. -/
theorem build_cases {p : Plan α} {n : Nat} {d : Draft α} (h : build p n = .ok d) :
    forAll? p n = some d ∨ d = forNew p n ∨
      ∃ e ∈ p.selected.toList ++ p.existing, d = forOne p n e := by
  unfold build at h
  split at h
  · simp only [Except.ok.injEq] at h
    exact .inr (.inl h.symm)
  · split at h
    · rename_i d' hall
      simp only [Except.ok.injEq] at h
      exact .inl (h ▸ hall)
    · simp only [bind_eq_ok_iff] at h
      obtain ⟨target, htarget, h⟩ := h
      cases target with
      | none =>
          simp only [pure_eq_ok, Except.ok.injEq] at h
          exact .inr (.inl h.symm)
      | some e =>
          have he := mem_of_target? htarget
          simp only [pure_eq_ok, Except.ok.injEq] at h
          split at h
          · exact .inr (.inl h.symm)
          · exact .inr (.inr ⟨e, he, h.symm⟩)

theorem grounded_of_build {p : Plan α} {n : Nat} {d : Draft α} (h : build p n = .ok d) :
    d.Grounded p.canvas n := by
  rcases build_cases h with hall | rfl | ⟨e, he, rfl⟩
  · exact grounded_forAll? hall
  · exact grounded_forNew p n
  · exact grounded_forOne (List.mem_map_of_mem he)

theorem root_of_build {p : Plan α} {n : Nat} {d : Draft α} (h : build p n = .ok d) :
    d.root = none := by
  rcases build_cases h with hall | rfl | ⟨e, -, rfl⟩
  · simp only [forAll?, Option.ite_none_right_eq_some, Option.some.injEq] at hall
    rw [← hall.2]
    rfl
  · rfl
  · rfl

end Edit

end Storyboard
