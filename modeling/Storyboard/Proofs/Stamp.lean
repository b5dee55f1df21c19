import Mathlib.Data.List.Basic
import Storyboard.Proofs.Composition.Numbering
import Storyboard.Proofs.Gate.Sequence
/-!
# Stamps of keyframes

A keyframe is set on a property of an element at a time.  The stamps of a sequence are these three
of each of its keyframes, and the keyframes of one property of one element are a track.  Numbering
a sequence anew renames the elements of its stamps, placing elements under a parent leaves them
alone, and the gate may drop some but changes none.
-/

namespace Storyboard

open Quality (fieldOf payloadOf)
open Composition (movedText)

variable {α : Type}

/-- What a keyframe is set on, and when. -/
structure Stamp where
  element : String
  property : String
  time : Rat
  deriving DecidableEq

namespace Stamp

/-- Both keyframes move the same property of the same element. -/
def SameTrack (s t : Stamp) : Prop := s.element = t.element ∧ s.property = t.property

/-- On every track, the times rise. -/
def Rising (ss : List Stamp) : Prop := ss.Pairwise fun s t => s.SameTrack t → s.time < t.time

/-- No track is in both. -/
def Separate (ss ts : List Stamp) : Prop := ∀ s ∈ ss, ∀ t ∈ ts, ¬ s.SameTrack t

/-- The stamp of a keyframe whose elements are moved on by `k`. -/
def moved (k : Nat) (s : Stamp) : Stamp where
  element := movedText k s.element
  property := movedText k s.property
  time := s.time

theorem rising_append {ss ts : List Stamp} (hs : Rising ss) (ht : Rising ts)
    (hseparate : Separate ss ts) : Rising (ss ++ ts) :=
  List.pairwise_append.2 ⟨hs, ht, fun s hsmem t htmem hsame =>
    absurd hsame (hseparate s hsmem t htmem)⟩

/-- Rows of stamps with tracks of their own are put one after the other. -/
theorem rising_flatMap {β : Type} {f : β → List Stamp} {xs : List β}
    (h : ∀ x ∈ xs, Rising (f x)) (hseparate : xs.Pairwise fun x y => Separate (f x) (f y)) :
    Rising (xs.flatMap f) :=
  List.pairwise_flatMap.2 ⟨h, hseparate.imp fun hxy s hs t ht hsame =>
    absurd hsame (hxy s hs t ht)⟩

theorem separate_of_element {ss ts : List Stamp}
    (h : ∀ s ∈ ss, ∀ t ∈ ts, s.element ≠ t.element) : Separate ss ts :=
  fun s hs t ht hsame => h s hs t ht hsame.1

end Stamp

/-- A field that has to be a text. -/
def textField? (fields : Fields α) (name : String) : Option String :=
  (Fields.get? fields name).bind Value.text?

theorem textField?_eq_some_iff {fields : Fields α} {name s : String} :
    textField? fields name = some s ↔ Fields.get? fields name = some (.text s) := by
  unfold textField?
  rcases Fields.get? fields name with _ | v
  · simp
  · cases v <;> simp [Value.text?]

theorem textField?_raisedFields (k : Nat) (fields : Fields α) (name : String) :
    textField? (Placeholder.raisedFields k fields) name =
      (textField? fields name).map (Placeholder.raisedText k) := by
  unfold textField?
  rw [Placeholder.get?_raisedFields]
  rcases Fields.get? fields name with _ | v
  · rfl
  · exact Placeholder.text?_raised k v

variable [Scalar α]

/-- The stamp of a keyframe in wire form; other actions have none, nor has a keyframe whose time is
no number. -/
def stamp? (action : Value α) : Option Stamp :=
  if ActionName.ofValue? action = some .addKeyframe then do
    let element ← textField? (payloadOf action) "elementId"
    let property ← textField? (payloadOf action) "property"
    let time ← (fieldOf (payloadOf action) "time").toRat?
    return { element, property, time }
  else none

/-- The stamps of the keyframes of a sequence, in order. -/
def stamps (actions : List (Value α)) : List Stamp := actions.filterMap stamp?

/-- The times of the keyframes of a sequence, in order. -/
def times (actions : List (Value α)) : List Rat := (stamps actions).map Stamp.time

/-- The stamp of a keyframe of the compiler. -/
def Action.stamp? : Action α → Option Stamp
  | keyframe k => (Scalar.toRat? k.time).map fun time => ⟨k.element, k.property, time⟩
  | _ => none

theorem stamp?_eq_some_iff {a : Value α} {s : Stamp} :
    stamp? a = some s ↔ ActionName.ofValue? a = some .addKeyframe ∧
      Fields.get? (payloadOf a) "elementId" = some (.text s.element) ∧
      Fields.get? (payloadOf a) "property" = some (.text s.property) ∧
      (fieldOf (payloadOf a) "time").toRat? = some s.time := by
  unfold stamp?
  rw [← textField?_eq_some_iff, ← textField?_eq_some_iff]
  split
  · rename_i hname
    simp only [hname, true_and, Option.bind_eq_bind, Option.bind_eq_some_iff, Option.pure_def,
      Option.some.injEq]
    constructor
    · rintro ⟨element, helement, property, hproperty, time, htime, rfl⟩
      exact ⟨helement, hproperty, htime⟩
    · rintro ⟨helement, hproperty, htime⟩
      exact ⟨_, helement, _, hproperty, _, htime, rfl⟩
  · rename_i hname
    simp [hname]

@[simp] theorem stamp?_toValue (a : Action α) : stamp? a.toValue = a.stamp? := by
  cases a with
  | keyframe k =>
      cases htime : Scalar.toRat? k.time <;>
        simp [stamp?, Action.toValue, Action.stamp?, Action.keyframePayload, textField?, fieldOf,
          Value.text?, Value.toRat?, htime]
  | _ => simp [stamp?, Action.toValue, Action.stamp?]

theorem stamps_map_toValue (as : List (Action α)) :
    stamps (as.map Action.toValue) = as.filterMap Action.stamp? := by
  rw [stamps, List.filterMap_map]
  exact congrArg (List.filterMap · as) (funext stamp?_toValue)

theorem stamps_append (as bs : List (Value α)) : stamps (as ++ bs) = stamps as ++ stamps bs :=
  List.filterMap_append

theorem stamps_flatMap {β : Type} (f : β → List (Value α)) (xs : List β) :
    stamps (xs.flatMap f) = xs.flatMap fun x => stamps (f x) :=
  List.filterMap_flatMap

/-- In a closed sequence, keyframes move known elements and those that it adds. -/
theorem element_of_closed {known : List String} {as : List (Value α)} (h : Closed known as) :
    ∀ s ∈ stamps as, s.element ∈ known ∨ s.element ∈ addedIds as := by
  induction as generalizing known with
  | nil => simp [stamps]
  | cons a as ih =>
      intro s hs
      obtain ⟨b, hb, hstamp⟩ := List.mem_filterMap.1 hs
      rcases List.mem_cons.1 hb with rfl | hb
      · obtain ⟨hname, helement, -⟩ := stamp?_eq_some_iff.1 hstamp
        obtain ⟨t, ht, heq⟩ :=
          h.1 (.text s.element) (by simp [references, hname, fieldOf, helement])
        exact .inl (Value.text.inj heq ▸ ht)
      · have hrest : ∀ t ∈ addedIds as, t ∈ addedIds (a :: as) := by
          intro t ht
          obtain ⟨c, hc, hadded⟩ := List.mem_filterMap.1 ht
          exact List.mem_filterMap.2 ⟨c, List.mem_cons_of_mem a hc, hadded⟩
        rcases ih h.2 s (List.mem_filterMap.2 ⟨b, hb, hstamp⟩) with hknown | hadded
        · rcases List.mem_append.1 hknown with hadded | hknown
          · exact .inr (List.mem_filterMap.2 ⟨a, List.mem_cons_self, Option.mem_toList.1 hadded⟩)
          · exact .inl hknown
        · exact .inr (hrest _ hadded)

/-- The number of an element that a keyframe of a fragment moves is at most the highest number of
the fragment. -/
theorem le_peakOf_of_stamp {f : Fragment α} {s : Stamp} (hs : s ∈ stamps f.actions) {k : Nat}
    (hk : s.element = Placeholder.id k) : k ≤ Composition.peakOf f := by
  obtain ⟨a, ha, hstamp⟩ := List.mem_filterMap.1 hs
  obtain ⟨-, helement, -⟩ := stamp?_eq_some_iff.1 hstamp
  obtain ⟨payload, hpayload, helement⟩ := get?_payloadOf_eq_some_iff.1 helement
  have hrun : Decimal.digits k ∈ Placeholder.runs (.text s.element : Value α) := by
    simp [Placeholder.runs, hk]
  have hmem := Composition.mem_itemRuns ha (Composition.mem_runs_of_field? hpayload
    (Composition.mem_fieldRuns_of_get? helement hrun))
  have hle := Placeholder.valueOf_le_peak hmem
  rwa [Placeholder.valueOf_digits] at hle

/-! ## Actions of the compiler -/

/-- The stamps of the keyframes among some actions of the compiler. -/
def stampsOf (as : List (Action α)) : List Stamp := as.filterMap Action.stamp?

@[simp] theorem stampsOf_nil : stampsOf ([] : List (Action α)) = [] := rfl

theorem stampsOf_cons (a : Action α) (as : List (Action α)) :
    stampsOf (a :: as) = a.stamp?.toList ++ stampsOf as := by
  simp only [stampsOf, List.filterMap_cons]
  cases a.stamp? <;> rfl

@[simp] theorem stampsOf_append (as bs : List (Action α)) :
    stampsOf (as ++ bs) = stampsOf as ++ stampsOf bs :=
  List.filterMap_append

@[simp] theorem stampsOf_flatMap {β : Type} (f : β → List (Action α)) (xs : List β) :
    stampsOf (xs.flatMap f) = xs.flatMap fun x => stampsOf (f x) :=
  List.filterMap_flatMap

namespace Action

@[simp] theorem stamp?_under (parent : String) (a : Action α) :
    (a.under parent).stamp? = a.stamp? := by
  cases a <;> rfl

@[simp] theorem stamp?_rect (id : String) (x y width height : α) (fill stroke : Value α)
    (strokeWidth : α) (extra : Fields α) :
    (rect id x y width height fill stroke strokeWidth extra).stamp? = none :=
  rfl

@[simp] theorem stamp?_circle (id : String) (x y r : α) (fill stroke : Value α) (strokeWidth : α)
    (extra : Fields α) : (circle id x y r fill stroke strokeWidth extra).stamp? = none :=
  rfl

@[simp] theorem stamp?_path (id : String) (x y : α) (d : String) (fill stroke : Value α)
    (strokeWidth : α) (extra : Fields α) :
    (path id x y d fill stroke strokeWidth extra).stamp? = none :=
  rfl

@[simp] theorem stamp?_group (id : String) (x y : α) (parent : Parent) (extra : Fields α) :
    (group id x y parent extra).stamp? = none :=
  rfl

@[simp] theorem stamp?_image (id : String) (x y width height : α) (href : Option String)
    (extra : Fields α) : (image id x y width height href extra).stamp? = none :=
  rfl

end Action

/-! ## Numbered anew, and under a parent -/

theorem toRat?_raised (k : Nat) (v : Value α) : (Placeholder.raised k v).toRat? = v.toRat? := by
  cases v <;> rfl

theorem stamp?_raised {k : Nat} (hk : k ≠ 0) (a : Value α) :
    stamp? (Placeholder.raised k a) = (stamp? a).map (Stamp.moved k) := by
  have hmoved : Stamp.moved k = fun s =>
      ⟨Placeholder.raisedText k s.element, Placeholder.raisedText k s.property, s.time⟩ := by
    funext s
    simp only [Stamp.moved, movedText, if_neg hk]
  unfold stamp?
  rw [ofValue?_raised, payloadOf_raised, textField?_raisedFields, textField?_raisedFields,
    fieldOf_raisedFields, toRat?_raised, hmoved]
  split
  · cases textField? (payloadOf a) "elementId" <;>
      cases textField? (payloadOf a) "property" <;>
      cases (fieldOf (payloadOf a) "time").toRat? <;> rfl
  · rfl

theorem stamps_moved (k : Nat) (as : List (Value α)) :
    stamps (Composition.moved k as) = (stamps as).map (Stamp.moved k) := by
  unfold Composition.moved
  split
  · rename_i hk
    have hid : Stamp.moved k = id := by
      funext s
      simp [Stamp.moved, movedText, hk]
    rw [hid, List.map_id]
  · rename_i hk
    rw [Placeholder.raisedItems_eq_map, stamps, stamps, List.filterMap_map, List.map_filterMap]
    exact List.filterMap_congr fun a _ => stamp?_raised hk a

theorem stamps_reparent (id parent : String) (as : List (Value α)) :
    stamps (Composition.reparent id parent as) = stamps as := by
  rw [Composition.reparent, stamps, stamps, List.filterMap_map]
  refine List.filterMap_congr fun a _ => ?_
  simp only [Function.comp]
  split
  · rename_i hadds
    have hname := (addedId?_eq_some_iff.1 (adds_iff.1 hadds)).1
    unfold stamp?
    rw [ofValue?_placeUnder, hname]
    rfl
  · rfl

theorem stamps_emitted (wrapper : Option String) (anchored : Bool) (k : Nat) (f : Fragment α) :
    stamps (Composition.emitted wrapper anchored k f) = (stamps f.actions).map (Stamp.moved k) := by
  unfold Composition.emitted
  split
  · rw [stamps_reparent, stamps_moved]
  · exact stamps_moved k f.actions

theorem times_append (as bs : List (Value α)) : times (as ++ bs) = times as ++ times bs := by
  rw [times, stamps_append, List.map_append]
  rfl

theorem times_emitted (wrapper : Option String) (anchored : Bool) (k : Nat) (f : Fragment α) :
    times (Composition.emitted wrapper anchored k f) = times f.actions := by
  rw [times, stamps_emitted, List.map_map]
  rfl

/-- Joining fragments leaves their times alone. -/
theorem times_emittedAll (wrapper : Option String) (anchored : Bool) (n : Nat)
    (fs : List (Fragment α)) :
    times (Composition.emittedAll wrapper anchored n fs) = fs.flatMap fun f => times f.actions := by
  induction fs generalizing anchored n with
  | nil => rfl
  | cons f fs ih =>
      rw [Composition.emittedAll, times_append, times_emitted, ih]
      rfl

theorem stamps_wrapperActions (wrapper : Option String) :
    stamps (Composition.wrapperActions (α := α) wrapper) = [] := by
  cases wrapper <;> rfl

/-! ## Through the gate -/

namespace Gate

theorem stamp?_of_pass {a b : Value α} (h : pass a = .ok (some b)) : stamp? b = stamp? a := by
  obtain ⟨name, payload, passed, ha, hb, hpayload, hpassed, hpass⟩ := payload_of_pass h
  by_cases hframe : name = .addKeyframe
  · subst hframe
    obtain ⟨fields, rfl⟩ := object_of_passPayload (.inr (.inr rfl)) hpass
    obtain ⟨-, _, -, -, _, -, -, _, -, -, clamped, -, rfl⟩ := passKeyframe_eq_some_iff.1 hpass
    unfold stamp? textField? fieldOf
    rw [ha, hb, payloadOf_eq hpayload, payloadOf_eq hpassed, Fields.get?_set_ne (by decide),
      Fields.get?_set_ne (by decide), Fields.get?_set_ne (by decide)]
  · unfold stamp?
    rw [ha, hb, if_neg (by simpa using hframe), if_neg (by simpa using hframe)]

theorem exists_toRat?_of_finite? {v : Value α} {x : α} (h : v.finite? = .ok (some x)) :
    ∃ q, v.toRat? = some q := by
  cases v with
  | int n => exact ⟨n, rfl⟩
  | real y =>
      simp only [Value.finite?, Except.ok.injEq, Option.ite_none_right_eq_some] at h
      exact Option.isSome_iff_exists.1 h.1
  | _ => simp [Value.finite?] at h

/-- A keyframe that passed has a stamp, on a property that keyframes can move. -/
theorem exists_stamp_of_pass {a b : Value α} (h : pass a = .ok (some b))
    (hb : ActionName.ofValue? b = some .addKeyframe) :
    ∃ s, stamp? b = some s ∧ s.property ∈ animatable := by
  obtain ⟨name, payload, passed, -, hb', hpayload, hpassed, hpass⟩ := payload_of_pass h
  obtain rfl : name = .addKeyframe := Option.some.inj (hb'.symm.trans hb)
  obtain ⟨fields, rfl⟩ := object_of_passPayload (.inr (.inr rfl)) hpass
  obtain ⟨hid, property, hproperty, hname, time, htime, -, _, -, -, clamped, -, rfl⟩ :=
    passKeyframe_eq_some_iff.1 hpass
  obtain ⟨element, helement⟩ := exists_text_of_isNamed hid
  obtain ⟨q, hq⟩ := exists_toRat?_of_finite? htime
  refine ⟨⟨element, property, q⟩, stamp?_eq_some_iff.2 ⟨hb, ?_⟩, hproperty⟩
  unfold fieldOf at hq ⊢
  rw [payloadOf_eq hpassed, Fields.get?_set_ne (by decide), Fields.get?_set_ne (by decide),
    Fields.get?_set_ne (by decide)]
  exact ⟨helement, hname, hq⟩

/-- The gate drops stamps and changes none. -/
theorem stamps_sublist_of_passFrom {index : Nat} {as : List (Value α)} {r : Passage α}
    (h : passFrom index as = .ok r) : (stamps r.actions).Sublist (stamps as) := by
  induction as generalizing index r with
  | nil =>
      simp only [passFrom, Except.ok.injEq] at h
      simp [← h, stamps]
  | cons a as ih =>
      obtain ⟨passed?, later, hpass, hlater, hactions⟩ := passFrom_cons_eq_ok h
      have hrest := ih hlater
      rw [hactions, stamps_append]
      cases passed? with
      | none =>
          rw [← List.singleton_append, stamps_append]
          exact hrest.trans (List.sublist_append_right _ _)
      | some b =>
          have hhead : stamps [b] = stamps [a] := by
            simp only [stamps, List.filterMap_cons, stamp?_of_pass hpass]
          rw [← List.singleton_append (x := a), stamps_append, Option.toList_some, hhead]
          exact List.Sublist.append_left hrest _

end Gate

end Storyboard
