import Mathlib.Data.List.Basic
import Storyboard.Action
/-!
# Tracks

The keyframes on one property of one element are a track.  A track starts at a value when that is
the value of each of its earliest keyframes, and ends at one when its latest keyframes all hold it.
Some actions are unambiguous when no track of theirs has two keyframes at one time.
-/

namespace Storyboard

open Storyboard.Action (key)

variable {α : Type}

/-- The time and the value of the keyframe that an action sets on a property of an element. -/
def Action.moment? (id property : String) : Action α → Option (α × Value α)
  | keyframe k => if k.element = id ∧ k.property = property then some (k.time, k.value) else none
  | _ => none

/-- The keyframes on a property of an element, in order. -/
def track (id property : String) (as : List (Action α)) : List (α × Value α) :=
  as.filterMap (Action.moment? id property)

section

variable {id property : String}

@[simp] theorem track_nil : track id property ([] : List (Action α)) = [] := rfl

theorem track_cons (a : Action α) (as : List (Action α)) :
    track id property (a :: as) = (a.moment? id property).toList ++ track id property as := by
  simp only [track, List.filterMap_cons]
  cases a.moment? id property <;> rfl

@[simp] theorem track_append (as bs : List (Action α)) :
    track id property (as ++ bs) = track id property as ++ track id property bs :=
  List.filterMap_append

@[simp] theorem track_flatMap {β : Type} (f : β → List (Action α)) (xs : List β) :
    track id property (xs.flatMap f) = xs.flatMap fun x => track id property (f x) :=
  List.filterMap_flatMap

@[simp] theorem track_key_cons (element name easing : String) (t v : α) (as : List (Action α)) :
    track id property (key element name t v easing :: as) =
      if element = id ∧ name = property then (t, .real v) :: track id property as
      else track id property as := by
  rw [track_cons]
  show (if element = id ∧ name = property then some (t, Value.real v) else none).toList ++ _ = _
  split <;> rfl

@[simp] theorem track_add_cons (kind : ElementKind) (new : String) (props : Fields α)
    (parent : Parent) (as : List (Action α)) :
    track id property (.add kind new props parent :: as) = track id property as :=
  rfl

theorem track_ite (c : Prop) [Decidable c] (as bs : List (Action α)) :
    track id property (if c then as else bs) =
      if c then track id property as else track id property bs :=
  apply_ite (track id property) c as bs

/-- Actions that set no keyframe on an element have no track of it. -/
theorem track_eq_nil {as : List (Action α)}
    (h : ∀ k, .keyframe k ∈ as → k.element ≠ id) : track id property as = [] := by
  refine List.filterMap_eq_nil_iff.2 fun a ha => ?_
  cases a with
  | keyframe k => exact if_neg fun hk => h k ha hk.1
  | _ => rfl

end

section

variable [LT α]

/-- One time is before the other. -/
def Apart (s t : α) : Prop := s < t ∨ t < s

/-- The earliest keyframes of a track have this value. -/
def StartsAt (v : Value α) (ms : List (α × Value α)) : Prop :=
  ∀ m ∈ ms, (∀ m' ∈ ms, ¬ m'.1 < m.1) → m.2 = v

/-- The latest keyframes of a track have this value. -/
def EndsAt (v : Value α) (ms : List (α × Value α)) : Prop :=
  ∀ m ∈ ms, (∀ m' ∈ ms, ¬ m.1 < m'.1) → m.2 = v

/-- On every track, all times are apart: each says at one time no more than one value. -/
def Unambiguous (as : List (Action α)) : Prop :=
  ∀ id property, (track id property as).Pairwise fun m m' => Apart m.1 m'.1

end

end Storyboard
