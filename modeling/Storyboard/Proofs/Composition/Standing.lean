import Storyboard.Proofs.Binary.Opposite
import Storyboard.Proofs.Composition.Contents
import Storyboard.Proofs.Standing
/-!
# Where camera and weather stand

Camera and weather hang on the wrapper or on the anchor.  The weather takes the place of what it
hangs on back, so that it stands at zero, and the camera starts from that place.
-/

namespace Storyboard

open Placeholder (renumber raised)
open Quality (fieldOf payloadOf)

/-- The exact place that two numbers stand for. -/
def Spots (origin : Float × Float) (place : Rat × Rat) : Prop :=
  Scalar.toRat? origin.1 = some place.1 ∧ Scalar.toRat? origin.2 = some place.2

theorem spots_zero : Spots (0.0, 0.0) 0 := ⟨Binary.toRat?_zero, Binary.toRat?_zero⟩

theorem Spots.neg {origin : Float × Float} {place : Rat × Rat} (h : Spots origin place) :
    Spots (-origin.1, -origin.2) (-place) :=
  ⟨Binary.toRat?_neg h.1, Binary.toRat?_neg h.2⟩

theorem freestanding_of_spots {id : String} {origin : Float × Float} {place : Rat × Rat}
    {parent : Parent} (h : Spots origin place) (hparent : ∀ s, parent ≠ .of s) :
    Freestanding (Action.group id origin.1 origin.2 parent).toValue id place :=
  freestanding_group hparent h.1 h.2

namespace Composition

/-- The root of the fragment is one of its elements, hangs under nothing, and stands where the
fragment is said to. -/
def Footed (f : Fragment Float) : Prop :=
  ∀ root, f.root? = some root → ∃ a ∈ f.actions, ∃ place, Freestanding a root place ∧
    ∀ origin, originOf f = .ok origin → Spots origin place

theorem exists_freestanding_of_renumber {k : Nat} {as bs : List (Value Float)} {root id : String}
    (hid : renumber (α := Float) k (.text root) = .ok (.text id))
    (hblock : renumber k (.list as) = .ok (.list bs)) {a : Value Float} (ha : a ∈ as)
    {place : Rat × Rat} (h : Freestanding a root place) : ∃ b ∈ bs, Freestanding b id place := by
  unfold renumber at hid hblock
  split at hid
  · rename_i hk
    rw [if_pos hk, Except.ok.injEq, Value.list.injEq] at hblock
    rw [Except.ok.injEq, Value.text.injEq] at hid
    exact ⟨a, hblock ▸ ha, hid ▸ h⟩
  · rename_i hk
    rw [if_neg hk] at hblock
    obtain rfl := Value.text.inj (Placeholder.shiftAll_eq_ok_iff.1 hid).2
    obtain rfl := Value.list.inj (Placeholder.shiftAll_eq_ok_iff.1 hblock).2
    rw [Placeholder.raisedItems_eq_map]
    exact ⟨_, List.mem_map_of_mem ha, h.raised k⟩

/-- Without a wrapper, the anchor hangs under nothing and stands where camera and weather take it
to stand. -/
theorem freestanding_of_arranged {k last : Nat} {fs : List (Fragment Float)}
    {anchor : Option (String × (Float × Float))} {blocks : List (List (Value Float))}
    (h : Arranged none k fs anchor blocks last) (hfs : ∀ f ∈ fs, Footed f) {id : String}
    {origin : Float × Float} (hanchor : anchor = some (id, origin)) :
    ∃ a ∈ blocks.flatten, ∃ place, Freestanding a id place ∧ Spots origin place := by
  induction h with
  | nil => cases hanchor
  | rootless _ _ _ ih =>
      obtain ⟨a, ha, hstands⟩ := ih (List.forall_mem_cons.1 hfs).2 hanchor
      exact ⟨a, List.mem_append_right _ ha, hstands⟩
  | anchor root moved stands shifted hung =>
      cases hanchor
      obtain ⟨a, ha, place, hfree, hspots⟩ := (List.forall_mem_cons.1 hfs).1 _ root
      obtain ⟨b, hb, hfree⟩ := exists_freestanding_of_renumber moved shifted.block_eq ha hfree
      obtain rfl := hung
      exact ⟨b, List.mem_append_left _ hb, place, hfree, hspots _ stands⟩

/-- What camera and weather hang on hangs under nothing itself, and stands where they take it to
stand. -/
theorem freestanding_mount {wrapper : Option String} {k last : Nat} {fs : List (Fragment Float)}
    {anchor : Option (String × (Float × Float))} {blocks : List (List (Value Float))}
    (h : Arranged wrapper k fs anchor blocks last) (hfs : ∀ f ∈ fs, Footed f) {id : String}
    (hid : (mount wrapper anchor).1 = some id) :
    ∃ a ∈ wrapperActions wrapper ++ blocks.flatten, ∃ place, Freestanding a id place ∧
      Spots (mount wrapper anchor).2 place := by
  cases wrapper with
  | some w =>
      obtain rfl := Option.some.inj hid
      refine ⟨_, List.mem_append_left _ (List.mem_singleton.2 rfl), 0, ?_, spots_zero⟩
      exact freestanding_of_spots spots_zero (by simp)
  | none =>
      cases anchor with
      | none => cases hid
      | some anchor =>
          obtain rfl := Option.some.inj hid
          obtain ⟨a, ha, hstands⟩ := freestanding_of_arranged h hfs rfl
          exact ⟨a, List.mem_append_right _ ha, hstands⟩

/-- With nothing to hang on, the weather stands at zero. -/
theorem spots_mount {wrapper : Option String} {anchor : Option (String × (Float × Float))}
    (h : (mount wrapper anchor).1 = none) : Spots (mount wrapper anchor).2 0 := by
  cases wrapper with
  | some w => cases h
  | none =>
      cases anchor with
      | none => exact spots_zero
      | some anchor => cases h

/-- With a root among the fragments, camera and weather have something to hang on. -/
theorem exists_mount {wrapper : Option String} {k last : Nat} {fs : List (Fragment Float)}
    {anchor : Option (String × (Float × Float))} {blocks : List (List (Value Float))}
    (h : Arranged wrapper k fs anchor blocks last) (hroot : ∃ f ∈ fs, f.root?.isSome = true) :
    ∃ id, (mount wrapper anchor).1 = some id := by
  obtain ⟨a, rfl⟩ := Option.isSome_iff_exists.1 ((isSome_anchor_iff h).2 hroot)
  cases wrapper <;> exact ⟨_, rfl⟩

/-! ## Weather -/

section

variable {actions : List (Value Float)} {parent : Option String} {origin : Float × Float}

/-- What camera and weather hang on stands where they take it to stand; zero if there is nothing. -/
def Steadied (actions : List (Value Float)) (parent : Option String) (origin : Float × Float) :
    Prop :=
  ∃ above, Spots origin above ∧
    match parent with
    | none => above = 0
    | some id => ∀ place, StandsAt actions id place ↔ place = above

/-- The weather is laid out on the artboard: its group stands at zero, so that every particle
stands at the place of its own. -/
structure OnArtboard (actions weather : List (Value Float)) (group : String) : Prop where
  adds : weather.head?.bind addedId? = some group
  stands : ∀ place, StandsAt actions group place ↔ place = 0
  particles : ∀ a ∈ weather, ∀ id, addedId? a = some id → id ≠ group →
    ∀ place, StandsAt actions id place ↔ ownPlace? a = some place

theorem OnArtboard.congr {actions actions' weather : List (Value Float)} {group : String}
    (h : OnArtboard actions weather group)
    (hsame : ∀ id place, StandsAt actions' id place ↔ StandsAt actions id place) :
    OnArtboard actions' weather group where
  adds := h.adds
  stands place := (hsame group place).trans (h.stands place)
  particles a ha id hid hne place := (hsame id place).trans (h.particles a ha id hid hne place)

theorem parentOf_under (a : Action Float) {group id : String}
    (h : (a.under group).added? = some id) :
    parentOf (a.under group).toValue = .text group := by
  cases a with
  | add kind id props parent => rfl
  | _ => cases h

/-- The weather is a group and elements in it. -/
theorem overlay_eq_group_cons {p : Plan Float} (hfalls : p.weather ≠ .none) (n : Nat)
    (parent : Option String) (origin : Float × Float) :
    ∃ rest, Weather.overlay p n parent origin =
        Action.group (Placeholder.id (n + 1)) (-origin.1) (-origin.2) (.ofOption parent) :: rest ∧
      ∀ a ∈ rest, ∀ id, a.added? = some id →
        parentOf a.toValue = .text (Placeholder.id (n + 1)) := by
  unfold Weather.overlay
  cases hweather : p.weather with
  | none => exact absurd hweather hfalls
  | rain =>
      refine ⟨_, rfl, fun a ha id hid => ?_⟩
      obtain ⟨k, -, ha⟩ := List.mem_flatMap.1 ha
      simp only [Weather.drop, List.mem_cons, List.not_mem_nil, or_false] at ha
      rcases ha with rfl | rfl | rfl
      · exact parentOf_under _ hid
      · cases hid
      · cases hid
  | snow =>
      refine ⟨_, rfl, fun a ha id hid => ?_⟩
      obtain ⟨k, -, ha⟩ := List.mem_flatMap.1 ha
      simp only [Weather.flake, List.mem_cons, List.not_mem_nil, or_false] at ha
      rcases ha with rfl | rfl | rfl | rfl | rfl
      · exact parentOf_under _ hid
      all_goals cases hid

/-- The group takes the place of what it hangs on back. -/
theorem standsAt_group_iff (hunique : (addedIds actions).Nodup) {id : String}
    (hgroup : (Action.group id (-origin.1) (-origin.2) (.ofOption parent)).toValue ∈ actions)
    (h : Steadied actions parent origin) (place : Rat × Rat) :
    StandsAt actions id place ↔ place = 0 := by
  obtain ⟨above, hspots, habove⟩ := h
  cases parent with
  | none =>
      subst habove
      have hfree : Freestanding (Action.group id (-origin.1) (-origin.2) .none).toValue id (-0) :=
        freestanding_of_spots hspots.neg (by simp)
      rw [hfree.standsAt_iff hunique hgroup, neg_zero]
  | some parent =>
      -- The place of the group and the place of what it hangs under are opposite.
      have hplace : ownPlace? (Action.group id (-origin.1) (-origin.2)
          (.ofOption (some parent))).toValue = some (-above) :=
        ownPlace?_group _ hspots.neg.1 hspots.neg.2
      rw [standsAt_iff_of_inside hunique hgroup (addedId?_toValue _) rfl habove]
      constructor
      · rintro ⟨own, hown, rfl⟩
        obtain rfl : -above = own := Option.some.inj (hplace.symm.trans hown)
        exact add_neg_cancel above
      · rintro rfl
        exact ⟨-above, hplace, (add_neg_cancel above).symm⟩

theorem onArtboard_of_steadied {p : Plan Float} {n : Nat} (hunique : (addedIds actions).Nodup)
    (hsub : ∀ a ∈ Weather.overlay p n parent origin, a.toValue ∈ actions)
    (h : Steadied actions parent origin) (hfalls : p.weather ≠ .none) :
    OnArtboard actions ((Weather.overlay p n parent origin).map Action.toValue)
      (Placeholder.id (n + 1)) := by
  obtain ⟨rest, hrest, hunder⟩ := overlay_eq_group_cons hfalls n parent origin
  rw [hrest] at hsub ⊢
  obtain ⟨hgroup, hsub⟩ := List.forall_mem_cons.1 hsub
  have hzero := standsAt_group_iff hunique hgroup h
  refine ⟨addedId?_toValue _, hzero, fun b hb id hid hne place => ?_⟩
  rw [List.map_cons] at hb
  rcases List.mem_cons.1 hb with rfl | hb
  · rw [addedId?_toValue] at hid
    exact absurd (Option.some.inj hid).symm hne
  · obtain ⟨a, ha, rfl⟩ := List.mem_map.1 hb
    rw [standsAt_iff_of_inside hunique (hsub a ha) hid
      (hunder a ha id ((addedId?_toValue a).symm.trans hid)) hzero]
    simp only [zero_add, exists_eq_right']

end

/-! ## Camera -/

/-- The first keyframe of some actions on a property is at the time and has the value. -/
def Leads (actions : List (Value Float)) (property : String) (time : Float) (value : Rat) : Prop :=
  ∃ a, actions.find? (fun a => textField? (payloadOf a) "property" = some property) = some a ∧
    fieldOf (payloadOf a) "time" = .real time ∧
    (fieldOf (payloadOf a) "value").toRat? = some value

/-- The camera starts from where the element stands that it drives. -/
structure StartsInPlace (actions camera : List (Value Float)) (time : Float) (id : String)
    (place : Rat × Rat) : Prop where
  drives : ∀ a ∈ camera, fieldOf (payloadOf a) "elementId" = .text id
  stands : ∀ q, StandsAt actions id q ↔ q = place
  x : Leads camera "x" time place.1
  y : Leads camera "y" time place.2

theorem StartsInPlace.congr {actions actions' camera : List (Value Float)} {time : Float}
    {id : String} {place : Rat × Rat} (h : StartsInPlace actions camera time id place)
    (hsame : ∀ id place, StandsAt actions' id place ↔ StandsAt actions id place) :
    StartsInPlace actions' camera time id place :=
  { h with stands := fun q => (hsame id q).trans (h.stands q) }

theorem startsInPlace_of_steadied {actions : List (Value Float)} {p : Plan Float} {id : String}
    {origin : Float × Float} (h : Steadied actions (some id) origin) :
    ∃ place, StartsInPlace actions ((Camera.motion p id origin).map Action.toValue)
      p.beats.intro.start id place := by
  obtain ⟨place, ⟨hx, hy⟩, hstands⟩ := h
  refine ⟨place, ?_, hstands, ⟨_, rfl, rfl, hx⟩, ⟨_, rfl, rfl, hy⟩⟩
  simp [Camera.motion, Action.key, Action.frame, Action.toValue, Action.keyframePayload, fieldOf]

end Composition

end Storyboard
