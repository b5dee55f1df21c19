import Storyboard.Proofs.Composition.Overlay
/-!
# Compositions that go through

Composing fails on a number that cannot be read or written, on a property that cannot be looked
up and on a place that is no number.  Nothing else stands in its way.
-/

namespace Storyboard.Composition

open Placeholder (itemRuns textRuns peak Readable ceiling)
open Quality (payloadOf)

variable {α : Type}

theorem drives_returns {a : Value α} (id : String)
    (h : ∀ v, Fields.get? (payloadOf a) "property" = some v → v.isContainer = false) :
    ∃ b, drives id a = .ok b := by
  unfold drives
  split
  · rename_i payload hpayload
    split
    · split
      · exact ⟨_, rfl⟩
      · rename_i v _ hv
        have hplain := h v (get?_payloadOf_eq_some_iff.2 ⟨payload, hpayload, hv⟩)
        exact ⟨false, by simp [hplain]⟩
      · exact ⟨_, rfl⟩
    · exact ⟨_, rfl⟩
  · exact ⟨_, rfl⟩

theorem isDriven_returns {as : List (Value α)} (id : String)
    (h : ∀ a ∈ as, ∀ v, Fields.get? (payloadOf a) "property" = some v → v.isContainer = false) :
    ∃ b, isDriven id as = .ok b := by
  induction as with
  | nil => exact ⟨_, rfl⟩
  | cons a as ih =>
      obtain ⟨b, hb⟩ := drives_returns id (h a (by simp))
      obtain ⟨rest, hrest⟩ := ih fun a ha => h a (by simp [ha])
      cases b with
      | true => exact ⟨true, by simp [isDriven, hb]⟩
      | false => exact ⟨rest, by simp [isDriven, hb, hrest]⟩

variable [Scalar α]

/-- A fragment that can be joined: numbers can be read, properties can be looked up, the root's
number is among those of the actions, and the place is a pair of numbers. -/
structure Joinable (f : Fragment α) : Prop where
  readable : Readable (itemRuns f.actions)
  searchable : ∀ a ∈ f.actions, ∀ v, Fields.get? (payloadOf a) "property" = some v →
    v.isContainer = false
  root_readable : ∀ root, f.root? = some root →
    Readable (textRuns root) ∧ peak (textRuns root) ≤ peakOf f
  placed : ∃ origin, originOf f = .ok origin

theorem needsWrapper_returns (p : Plan α) {fs : List (Fragment α)}
    (h : ∀ f ∈ fs, Joinable f) : ∃ wrapped, needsWrapper p fs = .ok wrapped := by
  unfold needsWrapper
  split
  · exact ⟨_, rfl⟩
  · rename_i f hf
    have hmem : f ∈ fs := List.mem_of_find?_eq_some hf
    split
    · exact isDriven_returns _ (h f hmem).searchable
    · exact ⟨_, rfl⟩

theorem shifted_returns {k : Nat} {f : Fragment α} (h : Joinable f)
    (hroom : k + peakOf f < ceiling) : ∃ as, shifted k f = .ok as := by
  unfold shifted
  split
  · exact ⟨_, rfl⟩
  · refine ⟨_, Placeholder.shiftItems_eq_ok_iff.2 ⟨?_, rfl⟩⟩
    refine Placeholder.movable_of_readable h.readable ?_
    unfold peakOf at hroom
    omega

theorem anchorAfter_returns {s : Progress α} {f : Fragment α} (h : Joinable f)
    (hroom : s.issued + peakOf f < ceiling) : ∃ anchor, anchorAfter s f = .ok anchor := by
  unfold anchorAfter
  split
  · rename_i root _ hroot
    obtain ⟨origin, horigin⟩ := h.placed
    by_cases hk : s.issued = 0
    · exact ⟨some (root, origin), by simp [hk, horigin]⟩
    · obtain ⟨hread, hpeak⟩ := h.root_readable root hroot
      have hmove : Placeholder.Movable s.issued (textRuns root) :=
        Placeholder.movable_of_readable hread (by omega)
      have hid := Placeholder.shiftText_eq_ok_iff.2 ⟨hmove, rfl⟩
      exact ⟨some (Placeholder.raisedText s.issued root, origin), by simp [hk, horigin, hid]⟩
  · exact ⟨_, rfl⟩

theorem join_returns {wrapper : Option String} {s : Progress α} {f : Fragment α}
    (h : Joinable f) (hroom : s.issued + peakOf f < ceiling) :
    ∃ s', join wrapper s f = .ok s' := by
  obtain ⟨as, has⟩ := shifted_returns h hroom
  obtain ⟨anchor, hanchor⟩ := anchorAfter_returns h hroom
  have hhighest := Placeholder.highestItem_eq_ok_iff.2 ⟨h.readable, rfl⟩
  exact ⟨_, by simp [join, has, hhighest, hanchor]; rfl⟩

theorem joinAll_returns {wrapper : Option String} {s : Progress α} {fs : List (Fragment α)}
    (h : ∀ f ∈ fs, Joinable f) (hroom : lastNumber s.issued fs < ceiling) :
    ∃ s', joinAll wrapper s fs = .ok s' := by
  induction fs generalizing s with
  | nil => exact ⟨s, rfl⟩
  | cons f fs ih =>
      have hstep : s.issued + peakOf f < ceiling :=
        Nat.lt_of_le_of_lt (le_lastNumber _ fs) hroom
      obtain ⟨s₁, hs₁⟩ : ∃ s₁, join wrapper s f = .ok s₁ := join_returns (h f (by simp)) hstep
      have hissued := (join_eq_ok hs₁).1
      obtain ⟨s', hs'⟩ := ih (s := s₁) (fun g hg => h g (by simp [hg])) (by
        rw [hissued]
        exact hroom)
      exact ⟨s', joinAll_cons_eq_ok_iff.2 ⟨s₁, hs₁, hs'⟩⟩

/-- Fragments that can be joined are composed when there are numbers enough. -/
theorem compose_returns (p : Plan α) {fs : List (Fragment α)} {n : Nat}
    (h : ∀ f ∈ fs, Joinable f) (hroom : lastNumber (n + 1) fs + 17 < ceiling) :
    ∃ c, compose p fs n = .ok c := by
  obtain ⟨wrapped, hwrapped⟩ := needsWrapper_returns p h
  have hfirst : firstNumber wrapped n ≤ n + 1 := by
    unfold firstNumber
    split <;> omega
  have hlast : lastNumber (firstNumber wrapped n) fs ≤ lastNumber (n + 1) fs :=
    lastNumber_mono hfirst
  have hlow := le_lastNumber (firstNumber wrapped n) fs
  obtain ⟨s, hs⟩ : ∃ s, joinAll (wrapperId? wrapped n) { issued := firstNumber wrapped n } fs =
      .ok s := joinAll_returns h (by simp only; omega)
  have hissued : s.issued = lastNumber (firstNumber wrapped n) fs := (joinAll_eq_ok hs).1
  have hweather := (le_issued p s.issued).2
  exact ⟨_, compose_eq_ok_iff.2
    ⟨wrapped, s, hwrapped, fun _ => by omega, hs, fun _ => by omega, rfl⟩⟩

end Storyboard.Composition
