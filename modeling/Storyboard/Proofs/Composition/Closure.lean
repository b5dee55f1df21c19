import Storyboard.Proofs.Composition.Carriage
import Storyboard.Proofs.Composition.Numbering
import Storyboard.Proofs.Gate.Sequence
/-!
# Compositions of closed fragments

Fragments that pass the gate as they are and refer to nothing but their own elements are composed
to a sequence of the same kind: moving a fragment on moves its references along with its elements,
and camera and weather hold on to an element that was added before.
-/

namespace Storyboard.Composition

open Placeholder (raisedText itemRuns textRuns runs ceiling)
open Gate (Steady Spares)

variable {α : Type}

/-- Every reference in a fragment that is moved on by `k` is to a known element or to one of the
fragment's own. -/
def Anchored (known : List String) (part : Nat × Fragment α) : Prop :=
  Closed known (moved part.1 part.2.actions)

/-- The root of a fragment is one of the elements that it adds. -/
def Rooted (f : Fragment α) : Prop := ∀ root, f.root? = some root → root ∈ addedIds f.actions

theorem mem_of_mem_offsets {n : Nat} {fs : List (Fragment α)} {part : Nat × Fragment α}
    (h : part ∈ offsets n fs) : part.2 ∈ fs := by
  induction fs generalizing n with
  | nil => simp [offsets] at h
  | cons f fs ih =>
      rcases List.mem_cons.1 h with rfl | h
      · simp
      · exact List.mem_cons_of_mem _ (ih h)

theorem anchored_of_closed {known : List String} {k : Nat} {f : Fragment α}
    (h : Closed [] f.actions) : Anchored known (k, f) := by
  unfold Anchored moved
  split
  · exact closed_mono (by simp) h
  · exact closed_mono (by simp) (closed_raisedItems h)

theorem closed_emitted {known : List String} {wrapper : Option String} {anchored : Bool} {k : Nat}
    {f : Fragment α} (hwrapper : ∀ w, wrapper = some w → w ∈ known) (h : Anchored known (k, f)) :
    Closed known (emitted wrapper anchored k f) := by
  unfold emitted
  split
  · exact closed_reparent _ (hwrapper _ rfl) h
  · exact h

theorem closed_emittedAll {known : List String} {wrapper : Option String} {anchored : Bool}
    {n : Nat} {fs : List (Fragment α)} (hwrapper : ∀ w, wrapper = some w → w ∈ known)
    (h : ∀ part ∈ offsets n fs, Anchored known part) :
    Closed known (emittedAll wrapper anchored n fs) := by
  induction fs generalizing n anchored with
  | nil => trivial
  | cons f fs ih =>
      obtain ⟨hf, hfs⟩ := List.forall_mem_cons.1 h
      rw [emittedAll, closed_append]
      refine ⟨closed_emitted hwrapper hf, ?_⟩
      exact closed_mono (fun s hs => List.mem_append_right _ hs) (ih hfs)

theorem mem_of_anchorId? {wrapper : Option String} {anchored : Bool} {n : Nat}
    {fs : List (Fragment α)} {s : String} (h : anchorId? n fs = some s)
    (hfs : ∀ f ∈ fs, Rooted f) : s ∈ addedIds (emittedAll wrapper anchored n fs) := by
  induction fs generalizing n anchored with
  | nil => simp [anchorId?] at h
  | cons f fs ih =>
      rw [emittedAll, addedIds_append, addedIds_emitted]
      rcases Option.or_eq_some_iff.1 h with hroot | ⟨-, hrest⟩
      · obtain ⟨root, hf, rfl⟩ := Option.map_eq_some_iff.1 hroot
        exact List.mem_append_left _ (List.mem_map_of_mem (hfs f (by simp) root hf))
      · exact List.mem_append_right _ (ih hrest fun g hg => hfs g (by simp [hg]))

/-! ## Ids -/

/-- The ids that a fragment adds are the placeholders of some numbers. -/
def Numbered (ids : List String) : Prop := ∀ s ∈ ids, ∃ k, s = Placeholder.id k

theorem numbered_append {ids ids' : List String} :
    Numbered (ids ++ ids') ↔ Numbered ids ∧ Numbered ids' :=
  List.forall_mem_append

theorem numbered_map_id (ks : List Nat) : Numbered (ks.map Placeholder.id) := by
  intro s hs
  obtain ⟨k, -, rfl⟩ := List.mem_map.1 hs
  exact ⟨k, rfl⟩

theorem movedText_id (k n : Nat) : movedText k (Placeholder.id n) = Placeholder.id (n + k) := by
  unfold movedText
  split
  · rename_i hk
    rw [hk, Nat.add_zero]
  · exact Placeholder.raisedText_id k n

theorem numbered_map_movedText {ids : List String} (k : Nat) (h : Numbered ids) :
    Numbered (ids.map (movedText k)) := by
  intro s hs
  obtain ⟨t, ht, rfl⟩ := List.mem_map.1 hs
  obtain ⟨n, rfl⟩ := h t ht
  exact ⟨n + k, movedText_id k n⟩

/-- Numbered ids that rise are the placeholders of rising numbers. -/
theorem eq_map_id_of_risesWithin {low high : Nat} {ids : List String}
    (h : RisesWithin low high ids) (hids : Numbered ids) :
    ∃ ks : List Nat, ids = ks.map Placeholder.id ∧ ks.Pairwise (· < ·) ∧
      ∀ k ∈ ks, low < k ∧ k ≤ high := by
  obtain ⟨ks, hnumbers, hrise, hin⟩ := h
  refine ⟨ks, ?_, hrise, hin⟩
  induction ids generalizing ks with
  | nil =>
      have hks : ks = [] := by simpa using hnumbers.symm
      simp [hks]
  | cons s ids ih =>
      cases ks with
      | nil => simp at hnumbers
      | cons k ks =>
          simp only [List.map_cons, List.cons.injEq] at hnumbers
          obtain ⟨j, rfl⟩ := hids s (by simp)
          rw [Placeholder.wholeNumber?_id, Option.some.injEq] at hnumbers
          rw [List.map_cons, ← hnumbers.1, ← ih (fun t ht => hids t (by simp [ht])) ks hnumbers.2
            (List.pairwise_cons.1 hrise).2 fun m hm => hin m (by simp [hm])]

/-- The number of an id that is moved on with its fragment can be written. -/
theorem lt_ceiling_of_writable {k j : Nat} {f : Fragment α} (h : Writable k f)
    (hj : Placeholder.id j ∈ addedIds f.actions) : j + k < ceiling := by
  obtain ⟨a, ha, hadded⟩ := List.mem_filterMap.1 hj
  have hrun : Decimal.digits j ∈ itemRuns f.actions :=
    mem_itemRuns ha (mem_runs_of_addedId? hadded (by simp))
  by_cases hk : k = 0
  · rw [hk, Nat.add_zero, ← Placeholder.length_digits_le_iff]
    exact h.1 _ hrun
  · have hmove := (h.2 hk _ hrun).2
    rwa [Placeholder.valueOf_digits] at hmove

theorem numbered_emittedAll {wrapper : Option String} {anchored : Bool} {n : Nat}
    {fs : List (Fragment α)} (hfs : ∀ f ∈ fs, Numbered (addedIds f.actions)) :
    Numbered (addedIds (emittedAll wrapper anchored n fs)) := by
  induction fs generalizing n anchored with
  | nil => simp [emittedAll, addedIds, Numbered]
  | cons f fs ih =>
      rw [emittedAll, addedIds_append, addedIds_emitted, numbered_append]
      exact ⟨numbered_map_movedText n (hfs f (by simp)), ih fun g hg => hfs g (by simp [hg])⟩

theorem lt_ceiling_of_emittedAll {wrapper : Option String} {anchored : Bool} {n k : Nat}
    {fs : List (Fragment α)} (hfs : ∀ f ∈ fs, Numbered (addedIds f.actions))
    (hwritable : ∀ part ∈ offsets n fs, Writable part.1 part.2)
    (hk : Placeholder.id k ∈ addedIds (emittedAll wrapper anchored n fs)) : k < ceiling := by
  induction fs generalizing n anchored with
  | nil => simp [emittedAll, addedIds] at hk
  | cons f fs ih =>
      obtain ⟨hf, hrest⟩ := List.forall_mem_cons.1 hwritable
      rw [emittedAll, addedIds_append, addedIds_emitted] at hk
      rcases List.mem_append.1 hk with hk | hk
      · obtain ⟨t, ht, heq⟩ := List.mem_map.1 hk
        obtain ⟨j, rfl⟩ := hfs f (by simp) t ht
        rw [movedText_id] at heq
        rw [← Placeholder.id_injective heq]
        exact lt_ceiling_of_writable hf ht
      · exact ih (fun g hg => hfs g (by simp [hg])) hrest hk

variable [Scalar α]

/-! ## Steady fragments -/

theorem portable_steady : Portable (Steady (α := α)) where
  raised k _ h := Gate.steady_raised k h
  placed _ parent _ hadds h := Gate.steady_placeUnder parent hadds h

namespace Layout

variable {p : Plan α} {fs : List (Fragment α)} {n : Nat} {c : Composition α}

theorem closed (l : Layout p fs n c) {known : List String}
    (hanchored : ∀ part ∈ offsets (firstNumber l.wrapped n) fs, Anchored known part)
    (hrooted : ∀ f ∈ fs, Rooted f) : Closed known c.actions := by
  have hwrapper : ∀ w, wrapperId? l.wrapped n = some w →
      w ∈ addedIds (wrapperActions (α := α) (wrapperId? l.wrapped n)) ++ known := by
    intro w hw
    rw [addedIds_wrapperActions, hw]
    simp
  have hdriven : ∀ s, (wrapperId? l.wrapped n).or (anchorId? (firstNumber l.wrapped n) fs) =
      some s → s ∈ addedIds (wrapperActions (wrapperId? l.wrapped n)
        ++ emittedAll (wrapperId? l.wrapped n) false (firstNumber l.wrapped n) fs) ++ known := by
    intro s hs
    rw [addedIds_append, List.append_assoc]
    rcases Option.or_eq_some_iff.1 hs with hwrap | ⟨-, hanchor⟩
    · rcases List.mem_append.1 (hwrapper s hwrap) with hmem | hmem
      · exact List.mem_append_left _ hmem
      · exact List.mem_append_right _ (List.mem_append_right _ hmem)
    · exact List.mem_append_right _ (List.mem_append_left _ (mem_of_anchorId? hanchor hrooted))
  rw [l.actions_eq, closed_append, closed_append, closed_append]
  refine ⟨⟨⟨closed_wrapperActions _ _, ?_⟩, closed_cameraActions hdriven⟩, closed_overlay ?_⟩
  · exact closed_emittedAll hwrapper fun part hpart =>
      closed_mono (fun s hs => List.mem_append_right _ hs) (hanchored part hpart)
  · intro s hs
    rw [addedIds_append, addedIds_cameraActions, List.append_nil]
    exact hdriven s hs

theorem spares (l : Layout p fs n c) (h : ∀ f ∈ fs, ∀ a ∈ f.actions, Steady a) :
    ∀ a ∈ c.actions, Spares a := by
  intro a ha
  rw [l.actions_eq] at ha
  rcases List.mem_append.1 ha with ha | ha
  · rcases List.mem_append.1 ha with ha | ha
    · rcases List.mem_append.1 ha with ha | ha
      · cases hw : l.wrapped with
        | false => simp [hw, wrapperId?, wrapperActions] at ha
        | true =>
            simp only [hw, wrapperId?, if_true, wrapperActions, List.mem_singleton] at ha
            rw [ha]
            refine Gate.spares_toValue fun id hid => ?_
            simp only [Action.group, Action.added?_add, Option.some.injEq] at hid
            rw [← hid]
            exact Gate.isNamed_id _
      · exact Gate.spares_of_steady (portable_steady.every_emittedAll h a ha)
    · obtain ⟨b, hb, rfl⟩ := List.mem_map.1 ha
      refine Gate.spares_toValue fun id hid => ?_
      rw [added?_of_mem_cameraActions hb] at hid
      simp at hid
  · obtain ⟨b, hb, rfl⟩ := List.mem_map.1 ha
    refine Gate.spares_toValue fun id hid => ?_
    have hmem := List.mem_filterMap.2 ⟨b, hb, hid⟩
    rw [adds_overlay] at hmem
    obtain ⟨k, -, rfl⟩ := List.mem_map.1 hmem
    exact Gate.isNamed_id k

/-- The ids of all new elements are the placeholders of rising numbers that can be written. -/
theorem addedIds_eq (l : Layout p fs n c)
    (hrises : ∀ f ∈ fs, ∃ high, RisesWithin 0 high (addedIds f.actions))
    (hnumbered : ∀ f ∈ fs, Numbered (addedIds f.actions)) :
    ∃ ks : List Nat, addedIds c.actions = ks.map Placeholder.id ∧ ks.Pairwise (· < ·) ∧
      ∀ k ∈ ks, k < ceiling := by
  have hsplit : addedIds c.actions = (wrapperId? l.wrapped n).toList
      ++ addedIds (emittedAll (wrapperId? l.wrapped n) false (firstNumber l.wrapped n) fs)
      ++ (List.range' (l.last + 1) (c.issued - l.last)).map Placeholder.id := by
    rw [l.actions_eq, addedIds_append, addedIds_append, addedIds_append, addedIds_wrapperActions,
      addedIds_cameraActions, List.append_nil, ← l.addedIds_weather, weather]
  have hall : Numbered (addedIds c.actions) := by
    rw [hsplit, numbered_append, numbered_append]
    refine ⟨⟨?_, numbered_emittedAll hnumbered⟩, numbered_map_id _⟩
    cases l.wrapped with
    | false => simp [wrapperId?, Numbered]
    | true => exact numbered_map_id [n + 1]
  obtain ⟨ks, hks, hrise, -⟩ := eq_map_id_of_risesWithin (l.risesWithin hrises) hall
  refine ⟨ks, hks, hrise, fun k hk => ?_⟩
  have hmem : Placeholder.id k ∈ addedIds c.actions := by
    rw [hks]
    exact List.mem_map_of_mem hk
  rw [hsplit] at hmem
  rcases List.mem_append.1 hmem with hmem | hmem
  · rcases List.mem_append.1 hmem with hmem | hmem
    · cases hw : l.wrapped with
      | false => simp [hw, wrapperId?] at hmem
      | true =>
          have hfirst := l.first_writable
          simp only [hw, wrapperId?, if_true, Option.toList_some, List.mem_singleton] at hmem
          simp only [hw, firstNumber, if_true] at hfirst
          rw [Placeholder.id_injective hmem]
          exact hfirst (by omega)
    · exact lt_ceiling_of_emittedAll hnumbered l.writable hmem
  · obtain ⟨j, hj, heq⟩ := List.mem_map.1 hmem
    rw [← Placeholder.id_injective heq]
    have := List.mem_range'_1.1 hj
    have := l.issued_writable (by omega)
    omega

end Layout

end Storyboard.Composition
