import Mathlib.Algebra.Group.Prod
import Storyboard.Proofs.Gate.Answerable
import Storyboard.Proofs.Stamp
/-!
# Where elements stand

An element stands at its own place, counted from where its parent stands.  Places are exact: the
numbers are taken for what they are, and added without rounding.  Moving placeholders on and
passing the gate change none of them.
-/

namespace Storyboard

open Quality (fieldOf objectIn payloadOf)
open Placeholder (raised raisedText)

variable {α : Type}

/-- What an action says about the parent of a new element; null when it says nothing. -/
def parentOf (a : Value α) : Value α := fieldOf (payloadOf a) "targetParentId"

theorem parentOf_raised (k : Nat) (a : Value α) : parentOf (raised k a) = raised k (parentOf a) := by
  rw [parentOf, parentOf, payloadOf_raised, fieldOf_raisedFields]

variable [Scalar α]

/-- The exact place that an action gives to a new element, counted from its parent. -/
def ownPlace? (a : Value α) : Option (Rat × Rat) := do
  let x ← (fieldOf (objectIn (payloadOf a) "props") "x").toRat?
  let y ← (fieldOf (objectIn (payloadOf a) "props") "y").toRat?
  return (x, y)

/-- Where an element stands on the artboard: the places of the element and of everything that it
hangs under, added up. -/
inductive StandsAt (actions : List (Value α)) : String → Rat × Rat → Prop
  | top {a : Value α} {id : String} {own : Rat × Rat} (mem : a ∈ actions)
      (adds : addedId? a = some id) (parent : parentOf a = .null)
      (place : ownPlace? a = some own) : StandsAt actions id own
  | inside {a : Value α} {id parent : String} {own above : Rat × Rat} (mem : a ∈ actions)
      (adds : addedId? a = some id) (under : parentOf a = .text parent)
      (place : ownPlace? a = some own) (rest : StandsAt actions parent above) :
      StandsAt actions id (above + own)

theorem StandsAt.exists_adds {actions : List (Value α)} {id : String} {place : Rat × Rat}
    (h : StandsAt actions id place) : ∃ a ∈ actions, addedId? a = some id := by
  cases h with
  | top mem adds => exact ⟨_, mem, adds⟩
  | inside mem adds => exact ⟨_, mem, adds⟩

/-- The action adds an element that hangs under nothing. -/
structure Freestanding (a : Value α) (id : String) (place : Rat × Rat) : Prop where
  adds : addedId? a = some id
  parent : parentOf a = .null
  place : ownPlace? a = some place

/-! ## One element -/

section

variable {actions : List (Value α)} {a : Value α} {id : String}

omit [Scalar α] in
/-- When no id is added twice, an id tells the action that adds it. -/
theorem eq_of_addedId? {b : Value α} (hunique : (addedIds actions).Nodup) (ha : a ∈ actions)
    (hb : b ∈ actions) (hadds : addedId? a = some id) (hadds' : addedId? b = some id) : a = b := by
  induction actions with
  | nil => cases ha
  | cons c actions ih =>
      have hlater : ∀ d ∈ actions, addedId? d = some id → id ∈ addedIds actions :=
        fun d hd hid => List.mem_filterMap.2 ⟨d, hd, hid⟩
      rcases List.mem_cons.1 ha with rfl | hrest <;> rcases List.mem_cons.1 hb with rfl | hrest'
      · rfl
      · rw [addedIds, List.filterMap_cons_some hadds, List.nodup_cons] at hunique
        exact absurd (hlater b hrest' hadds') hunique.1
      · rw [addedIds, List.filterMap_cons_some hadds', List.nodup_cons] at hunique
        exact absurd (hlater a hrest hadds) hunique.1
      · have hsub := (List.sublist_cons_self c actions).filterMap addedId?
        exact ih (hunique.sublist hsub) hrest hrest'

theorem standsAt_iff_of_top (hunique : (addedIds actions).Nodup) (ha : a ∈ actions)
    (hadds : addedId? a = some id) (hparent : parentOf a = .null) (place : Rat × Rat) :
    StandsAt actions id place ↔ ownPlace? a = some place := by
  constructor
  · intro h
    cases h with
    | top hb hadds' _ hplace => rwa [eq_of_addedId? hunique ha hb hadds hadds']
    | inside hb hadds' hunder =>
        rw [← eq_of_addedId? hunique ha hb hadds hadds', hparent] at hunder
        cases hunder
  · exact .top ha hadds hparent

theorem standsAt_iff_of_inside (hunique : (addedIds actions).Nodup) (ha : a ∈ actions)
    (hadds : addedId? a = some id) {parent : String} (hunder : parentOf a = .text parent)
    {above : Rat × Rat} (habove : ∀ place, StandsAt actions parent place ↔ place = above)
    (place : Rat × Rat) :
    StandsAt actions id place ↔ ∃ own, ownPlace? a = some own ∧ place = above + own := by
  constructor
  · intro h
    cases h with
    | top hb hadds' hparent =>
        rw [← eq_of_addedId? hunique ha hb hadds hadds', hunder] at hparent
        cases hparent
    | inside hb hadds' hunder' hplace hrest =>
        obtain rfl := eq_of_addedId? hunique ha hb hadds hadds'
        rw [hunder] at hunder'
        obtain rfl := Value.text.inj hunder'
        rw [(habove _).1 hrest]
        exact ⟨_, hplace, rfl⟩
  · rintro ⟨own, hplace, rfl⟩
    exact .inside ha hadds hunder hplace ((habove above).2 rfl)

theorem Freestanding.standsAt_iff {own : Rat × Rat} (h : Freestanding a id own)
    (hunique : (addedIds actions).Nodup) (ha : a ∈ actions) (place : Rat × Rat) :
    StandsAt actions id place ↔ place = own := by
  rw [standsAt_iff_of_top hunique ha h.adds h.parent, h.place, Option.some.injEq, eq_comm]

end

/-! ## Actions of the compiler -/

theorem ownPlace?_group {id : String} {x y : α} {place : Rat × Rat} (parent : Parent)
    (hx : Scalar.toRat? x = some place.1) (hy : Scalar.toRat? y = some place.2) :
    ownPlace? (Action.group id x y parent).toValue = some place := by
  show ((Scalar.toRat? x).bind fun p => (Scalar.toRat? y).bind fun q => some (p, q)) = _
  rw [hx, hy]
  rfl

theorem freestanding_group {id : String} {x y : α} {place : Rat × Rat} {parent : Parent}
    (hparent : ∀ s, parent ≠ .of s) (hx : Scalar.toRat? x = some place.1)
    (hy : Scalar.toRat? y = some place.2) :
    Freestanding (Action.group id x y parent).toValue id place where
  adds := addedId?_toValue _
  parent := by
    cases parent with
    | of s => exact absurd rfl (hparent s)
    | _ => rfl
  place := ownPlace?_group parent hx hy

/-! ## Placeholders moved on -/

theorem ownPlace?_raised (k : Nat) (a : Value α) : ownPlace? (raised k a) = ownPlace? a := by
  simp only [ownPlace?, payloadOf_raised, objectIn_raisedFields, fieldOf_raisedFields,
    toRat?_raised]

theorem Freestanding.raised {a : Value α} {id : String} {place : Rat × Rat}
    (h : Freestanding a id place) (k : Nat) :
    Freestanding (raised k a) (raisedText k id) place where
  adds := by rw [addedId?_raised, h.adds, Option.map_some]
  parent := by
    rw [parentOf_raised, h.parent]
    rfl
  place := by rw [ownPlace?_raised, h.place]

/-! ## Through the gate -/

namespace Gate

variable {a b : Value α}

theorem parentOf_of_pass (h : pass a = .ok (some b)) : parentOf b = parentOf a := by
  rw [parentOf, parentOf, fieldOf, fieldOf, get?_payloadOf_of_pass h (by decide) (by decide)]

/-- The gate limits no place. -/
theorem ownPlace?_of_pass (h : pass a = .ok (some b)) {id : String} (hadds : addedId? a = some id) :
    ownPlace? b = ownPlace? a := by
  obtain ⟨name, payload, passed, hname, -, hpayload, hpassed, hpass⟩ := payload_of_pass h
  obtain ⟨hadd, fields, hfields, -⟩ := addedId?_eq_some_iff.1 hadds
  obtain rfl : ActionName.addElement = name := Option.some.inj (hadd.symm.trans hname)
  obtain rfl : Value.object fields = payload := Option.some.inj (hfields.symm.trans hpayload)
  obtain ⟨-, props, hprops, -, -, clamped, hclamped, rfl⟩ := passElement_eq_some_iff.1 hpass
  have hbefore : objectIn (payloadOf a) "props" = props := by
    rw [payloadOf_eq hpayload, objectIn, hprops]
    rfl
  have hafter : objectIn (payloadOf b) "props" = clamped := by
    rw [payloadOf_eq hpassed, objectIn, Fields.get?_set_self]
    rfl
  rw [ownPlace?, ownPlace?, hbefore, hafter, fieldOf, fieldOf, fieldOf, fieldOf,
    get?_clampFields_of_unbounded hclamped (by simp [bounds?, shares]),
    get?_clampFields_of_unbounded hclamped (by simp [bounds?, shares])]

theorem freestanding_of_pass (h : pass a = .ok (some b)) {id : String} {place : Rat × Rat}
    (ha : Freestanding a id place) : Freestanding b id place where
  adds := by rw [addedId?_of_pass h, ha.adds]
  parent := by rw [parentOf_of_pass h, ha.parent]
  place := by rw [ownPlace?_of_pass h ha.adds, ha.place]

variable {index : Nat} {as : List (Value α)} {r : Passage α}

/-- An action that adds an element passes, if nothing that is added may be dropped. -/
theorem exists_mem_of_adds (h : passFrom index as = .ok r) (hspares : ∀ a ∈ as, Spares a)
    (ha : a ∈ as) {id : String} (hadds : addedId? a = some id) :
    ∃ b ∈ r.actions, pass a = .ok (some b) := by
  induction as generalizing index r with
  | nil => cases ha
  | cons c as ih =>
      obtain ⟨passed?, later, hpass, hlater, hactions⟩ := passFrom_cons_eq_ok h
      rw [hactions]
      rcases List.mem_cons.1 ha with rfl | ha
      · cases passed? with
        | none =>
            rw [hspares a List.mem_cons_self hpass] at hadds
            cases hadds
        | some b => exact ⟨b, by simp, hpass⟩
      · obtain ⟨b, hb, hpass⟩ := ih hlater (fun d hd => hspares d (List.mem_cons_of_mem c hd)) ha
        exact ⟨b, List.mem_append_right _ hb, hpass⟩

/-- Everything stands after the gate where it stood before. -/
theorem standsAt_passFrom_iff (h : passFrom index as = .ok r) (hspares : ∀ a ∈ as, Spares a)
    {id : String} {place : Rat × Rat} :
    StandsAt r.actions id place ↔ StandsAt as id place := by
  constructor
  · intro hstands
    induction hstands with
    | top hb hadds hparent hplace =>
        obtain ⟨a, ha, hpass⟩ := exists_pass_of_mem h _ hb
        rw [addedId?_of_pass hpass] at hadds
        rw [parentOf_of_pass hpass] at hparent
        rw [ownPlace?_of_pass hpass hadds] at hplace
        exact .top ha hadds hparent hplace
    | inside hb hadds hunder hplace _ ih =>
        obtain ⟨a, ha, hpass⟩ := exists_pass_of_mem h _ hb
        rw [addedId?_of_pass hpass] at hadds
        rw [parentOf_of_pass hpass] at hunder
        rw [ownPlace?_of_pass hpass hadds] at hplace
        exact .inside ha hadds hunder hplace ih
  · intro hstands
    induction hstands with
    | top ha hadds hparent hplace =>
        obtain ⟨b, hb, hpass⟩ := exists_mem_of_adds h hspares ha hadds
        rw [← ownPlace?_of_pass hpass hadds] at hplace
        rw [← addedId?_of_pass hpass] at hadds
        rw [← parentOf_of_pass hpass] at hparent
        exact .top hb hadds hparent hplace
    | inside ha hadds hunder hplace _ ih =>
        obtain ⟨b, hb, hpass⟩ := exists_mem_of_adds h hspares ha hadds
        rw [← ownPlace?_of_pass hpass hadds] at hplace
        rw [← addedId?_of_pass hpass] at hadds
        rw [← parentOf_of_pass hpass] at hunder
        exact .inside hb hadds hunder hplace ih

end Gate

end Storyboard
