import Storyboard.Proofs.Gate.Passage
/-!
# Actions that pass as they are

An action is steady when the gate changes nothing about it.  Steady actions stay steady when their
placeholders are moved on and when they are placed under a parent, and whatever passed is steady.
-/

namespace Storyboard.Gate

open Quality (fieldOf objectIn payloadOf isInRange allInRange)
open Placeholder (raised)

variable {α : Type} [Scalar α]

/-- The action passes as it is. -/
def Steady (a : Value α) : Prop := pass a = .ok (some a)

theorem steady_raised {a : Value α} (k : Nat) (h : Steady a) : Steady (raised k a) := by
  unfold Steady at *
  rw [pass_raised, h]
  rfl

theorem steady_iff {a : Value α} :
    Steady a ↔ ∃ name payload, ActionName.ofValue? a = some name ∧
      a.field? "payload" = some payload ∧ passPayload name payload = .ok (some payload) := by
  unfold Steady
  rw [pass_eq_some_iff]
  constructor
  · rintro ⟨fields, rfl, name, hname, payload, hpayload, passed, hpass, hsame⟩
    rw [Value.object.injEq, Fields.set_eq_self_iff, hpayload, Option.some.injEq] at hsame
    exact ⟨name, payload, hname, hpayload, by rw [hpass, hsame]⟩
  · rintro ⟨name, payload, hname, hpayload, hpass⟩
    cases a with
    | object fields =>
        exact ⟨fields, rfl, name, hname, payload, hpayload, payload, hpass, by
          rw [Fields.set_of_get? hpayload]⟩
    | _ => simp [Value.field?] at hpayload

theorem passElement_eq_self_iff {payload : Fields α} :
    passElement payload = .ok (some (.object payload)) ↔
      isOneOf (ElementKind.inventory.map ElementKind.name) (Fields.get? payload "type") = .ok true ∧
        ∃ props, Fields.get? payload "props" = some (.object props) ∧
          isNamed (Fields.get? props "id") = true ∧
          isOptionalText (Fields.get? payload "targetParentId") = true ∧
          clampFields props = .ok props := by
  rw [passElement_eq_some_iff]
  refine and_congr_right fun _ => exists_congr fun props => and_congr_right fun hprops =>
    and_congr_right fun _ => and_congr_right fun _ => ?_
  simp only [Value.object.injEq, Fields.set_eq_self_iff, hprops, Option.some.injEq]
  constructor
  · rintro ⟨clamped, hclamped, rfl⟩
    exact hclamped
  · exact fun hclamped => ⟨props, hclamped, rfl⟩

theorem passUpdate_eq_self_iff {payload : Fields α} :
    passUpdate payload = .ok (some (.object payload)) ↔
      isNamed (Fields.get? payload "id") = true ∧
        ∃ props, Fields.get? payload "props" = some (.object props) ∧
          clampFields props = .ok props := by
  rw [passUpdate_eq_some_iff]
  refine and_congr_right fun _ => exists_congr fun props => and_congr_right fun hprops => ?_
  simp only [Value.object.injEq, Fields.set_eq_self_iff, hprops, Option.some.injEq]
  constructor
  · rintro ⟨clamped, hclamped, rfl⟩
    exact hclamped
  · exact fun hclamped => ⟨props, hclamped, rfl⟩

theorem passKeyframe_eq_self_iff {payload : Fields α} :
    passKeyframe payload = .ok (some (.object payload)) ↔
      isNamed (Fields.get? payload "elementId") = true ∧
        ∃ name ∈ animatable, Fields.get? payload "property" = some (.text name) ∧
          ∃ time, (fieldOf payload "time").finite? = .ok (some time) ∧ ¬ time < 0.0 ∧
            ∃ value, Fields.get? payload "value" = some value ∧
              isOptionalText (Fields.get? payload "easing") = true ∧
              clampProperty name value = .ok value := by
  rw [passKeyframe_eq_some_iff]
  refine and_congr_right fun _ => exists_congr fun name => and_congr_right fun _ =>
    and_congr_right fun _ => exists_congr fun time => and_congr_right fun _ =>
    and_congr_right fun _ => exists_congr fun value => and_congr_right fun hvalue =>
    and_congr_right fun _ => ?_
  simp only [Value.object.injEq, Fields.set_eq_self_iff, hvalue, Option.some.injEq]
  constructor
  · rintro ⟨clamped, hclamped, rfl⟩
    exact hclamped
  · exact fun hclamped => ⟨value, hclamped, rfl⟩

theorem steady_placeUnder {a : Value α} {id : String} (parent : String)
    (hadds : addedId? a = some id) (h : Steady a) :
    Steady (Composition.placeUnder (some parent) a) := by
  obtain ⟨name, payload, hname, hpayload, hpass⟩ := steady_iff.1 h
  obtain ⟨hadd, inner, hinner, -⟩ := addedId?_eq_some_iff.1 hadds
  rw [hadd, Option.some.injEq] at hname
  rw [hpayload, Option.some.injEq] at hinner
  subst hname hinner
  obtain ⟨htype, props, hprops, hid, -, hclamped⟩ := passElement_eq_self_iff.1 hpass
  refine steady_iff.2 ⟨.addElement, _, by rw [ofValue?_placeUnder, hadd],
    payload_placeUnder (some parent) hpayload, ?_⟩
  -- Only the parent changes, and a text is one.
  refine passElement_eq_self_iff.2 ⟨?_, props, ?_, hid, ?_, hclamped⟩
  · rw [Fields.get?_set_ne (by decide), htype]
  · rw [Fields.get?_set_ne (by decide), hprops]
  · rw [Fields.get?_set_self]
    rfl

/-! ## What passed -/

/-- What passed carries its payload with the properties or the value clamped. -/
theorem payload_of_pass {a b : Value α} (h : pass a = .ok (some b)) :
    ∃ name payload passed, ActionName.ofValue? a = some name ∧
      ActionName.ofValue? b = some name ∧ a.field? "payload" = some payload ∧
      b.field? "payload" = some passed ∧ passPayload name payload = .ok (some passed) := by
  have hsame := ofValue?_of_pass h
  obtain ⟨fields, rfl, name, hname, payload, hpayload, passed, hpass, rfl⟩ :=
    pass_eq_some_iff.1 h
  exact ⟨name, payload, passed, hname, by rw [hsame, hname], hpayload,
    Fields.get?_set_self _ _ _, hpass⟩

/-- New elements, changes and keyframes come with an object. -/
theorem object_of_passPayload {name : ActionName} {payload passed : Value α}
    (hname : name = .addElement ∨ name = .updateElement ∨ name = .addKeyframe)
    (h : passPayload name payload = .ok (some passed)) : ∃ fields, payload = .object fields := by
  cases payload with
  | object fields => exact ⟨fields, rfl⟩
  | _ => rcases hname with rfl | rfl | rfl <;> simp [passPayload] at h

theorem addedId?_of_pass {a b : Value α} (h : pass a = .ok (some b)) :
    addedId? b = addedId? a := by
  obtain ⟨name, payload, passed, ha, hb, hpayload, hpassed, hpass⟩ := payload_of_pass h
  by_cases hadd : name = .addElement
  · subst hadd
    obtain ⟨fields, rfl⟩ := object_of_passPayload (.inl rfl) hpass
    obtain ⟨-, props, hprops, hid, -, clamped, hclamped, rfl⟩ := passElement_eq_some_iff.1 hpass
    obtain ⟨s, hs⟩ := exists_text_of_isNamed hid
    have hbefore : addedId? a = some s := addedId?_eq_some_iff.2
      ⟨ha, fields, hpayload, props, hprops, hs⟩
    have hafter : addedId? b = some s := addedId?_eq_some_iff.2
      ⟨hb, _, hpassed, clamped, Fields.get?_set_self _ _ _, get?_id_clampFields hclamped hs⟩
    rw [hbefore, hafter]
  · simp [addedId?, ha, hb, hadd]

theorem references_of_pass {a b : Value α} (h : pass a = .ok (some b)) :
    references b = references a := by
  obtain ⟨name, payload, passed, ha, hb, hpayload, hpassed, hpass⟩ := payload_of_pass h
  cases name with
  | addElement =>
      obtain ⟨fields, rfl⟩ := object_of_passPayload (.inl rfl) hpass
      obtain ⟨-, props, -, -, -, clamped, -, rfl⟩ := passElement_eq_some_iff.1 hpass
      simp only [references, ha, hb, payloadOf_eq hpayload, payloadOf_eq hpassed, fieldOf]
      rw [Fields.get?_set_ne (by decide)]
  | updateElement =>
      obtain ⟨fields, rfl⟩ := object_of_passPayload (.inr (.inl rfl)) hpass
      obtain ⟨-, props, -, clamped, -, rfl⟩ := passUpdate_eq_some_iff.1 hpass
      simp only [references, ha, hb, payloadOf_eq hpayload, payloadOf_eq hpassed, fieldOf]
      rw [Fields.get?_set_ne (by decide)]
  | addKeyframe =>
      obtain ⟨fields, rfl⟩ := object_of_passPayload (.inr (.inr rfl)) hpass
      obtain ⟨-, _, -, -, _, -, -, _, -, -, clamped, -, rfl⟩ := passKeyframe_eq_some_iff.1 hpass
      simp only [references, ha, hb, payloadOf_eq hpayload, payloadOf_eq hpassed, fieldOf]
      rw [Fields.get?_set_ne (by decide)]
  | _ => simp [references, ha, hb]

end Storyboard.Gate
