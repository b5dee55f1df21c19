import Storyboard.Proofs.Gate.Raising
/-!
# What passes the gate

One description for each kind of payload that passes.  An action that passed passes again and
stays as it is, adds and refers to the same elements, and has its properties in range.
-/

namespace Storyboard.Gate

open Quality (fieldOf objectIn payloadOf isInRange)
open Placeholder (raised)

variable {α : Type} [Scalar α]

/-! ## Payloads that pass -/

theorem passElement_eq_some_iff {payload : Fields α} {out : Value α} :
    passElement payload = .ok (some out) ↔
      isOneOf (ElementKind.inventory.map ElementKind.name) (Fields.get? payload "type") = .ok true ∧
        ∃ props, Fields.get? payload "props" = some (.object props) ∧
          isNamed (Fields.get? props "id") = true ∧
          isOptionalText (Fields.get? payload "targetParentId") = true ∧
          ∃ clamped, clampFields props = .ok clamped ∧
            .object (Fields.set payload "props" (.object clamped)) = out := by
  unfold passElement
  rcases isOneOf (ElementKind.inventory.map ElementKind.name) (Fields.get? payload "type") with
    f | (_ | _)
  · simp
  · simp
  · rcases Fields.get? payload "props" with _ | props
    · simp
    · cases props with
      | object props =>
          by_cases hid : isNamed (Fields.get? props "id") = true <;>
            by_cases hparent : isOptionalText (Fields.get? payload "targetParentId") = true <;>
            simp [hid, hparent, bind_eq_ok_iff]
      | _ => simp

theorem passUpdate_eq_some_iff {payload : Fields α} {out : Value α} :
    passUpdate payload = .ok (some out) ↔
      isNamed (Fields.get? payload "id") = true ∧
        ∃ props, Fields.get? payload "props" = some (.object props) ∧
          ∃ clamped, clampFields props = .ok clamped ∧
            .object (Fields.set payload "props" (.object clamped)) = out := by
  unfold passUpdate
  cases isNamed (Fields.get? payload "id") with
  | false => simp
  | true =>
      rcases Fields.get? payload "props" with _ | props
      · simp
      · cases props <;> simp [bind_eq_ok_iff]

theorem passKeyframe_eq_some_iff {payload : Fields α} {out : Value α} :
    passKeyframe payload = .ok (some out) ↔
      isNamed (Fields.get? payload "elementId") = true ∧
        ∃ name ∈ animatable, Fields.get? payload "property" = some (.text name) ∧
          ∃ time, (fieldOf payload "time").finite? = .ok (some time) ∧ ¬ time < 0.0 ∧
            ∃ value, Fields.get? payload "value" = some value ∧
              isOptionalText (Fields.get? payload "easing") = true ∧
              ∃ clamped, clampProperty name value = .ok clamped ∧
                .object (Fields.set payload "value" clamped) = out := by
  unfold passKeyframe fieldOf
  by_cases hid : isNamed (Fields.get? payload "elementId") = true
  · by_cases hone : isOneOf animatable (Fields.get? payload "property") = .ok true
    · obtain ⟨name, hname, hproperty⟩ := isOneOf_eq_true_iff.1 hone
      rcases htime : ((Fields.get? payload "time").getD .null).finite? with f | (_ | time)
      · simp [hid, hone]
      · simp [hid, hone]
      · by_cases hearly : time < 0.0
        · simp [hid, hone, hearly]
        · cases hvalue : Fields.get? payload "value" with
          | none => simp [hid, hone]
          | some value =>
              by_cases heasing : isOptionalText (Fields.get? payload "easing") = true
              · rw [hproperty] at hone
                simp only [hid, hone, hearly, heasing, hproperty, Value.text?, bind_eq_ok_iff,
                  Bool.not_true, Bool.false_eq_true, if_false, Option.bind_some, Option.getD_some,
                  ok_bind, pure_eq_ok, Except.ok.injEq, Option.some.injEq, true_and,
                  Value.text.injEq, exists_eq_left', not_false_eq_true]
                exact ⟨fun h => ⟨name, hname, rfl, h⟩, by rintro ⟨_, -, rfl, h⟩; exact h⟩
              · simp [hid, hone, heasing]
    · have hnone : ∀ name ∈ animatable, Fields.get? payload "property" ≠ some (.text name) :=
        fun name hname hproperty => hone (isOneOf_eq_true_iff.2 ⟨name, hname, hproperty⟩)
      constructor
      · intro h
        rcases hcase : isOneOf animatable (Fields.get? payload "property") with f | (_ | _)
        · simp [hid, hcase] at h
        · simp [hid, hcase] at h
        · exact absurd hcase hone
      · rintro ⟨-, name, hname, hproperty, -⟩
        exact absurd hproperty (hnone name hname)
  · simp [hid]

theorem passNumber_eq_some_iff {accepts : α → Bool} {payload out : Value α} :
    passNumber accepts payload = .ok (some out) ↔
      (∃ x, payload.finite? = .ok (some x) ∧ accepts x = true) ∧ payload = out := by
  simp only [passNumber, map_eq_ok_iff, Option.map_eq_some_iff, Option.filter_eq_some_iff]
  constructor
  · rintro ⟨_, hx, x, ⟨rfl, haccepts⟩, rfl⟩
    exact ⟨⟨x, hx, haccepts⟩, rfl⟩
  · rintro ⟨⟨x, hx, haccepts⟩, rfl⟩
    exact ⟨some x, hx, x, ⟨rfl, haccepts⟩, rfl⟩

omit [Scalar α] in
theorem passReference_eq_some_iff {fields : Fields α} {out : Value α} :
    passReference fields = some out ↔
      isNamed (Fields.get? fields "elementId") = true ∧ .object fields = out := by
  simp only [passReference, Option.ite_none_right_eq_some, Option.some.injEq]

omit [Scalar α] in
theorem passId_eq_some_iff {payload out : Value α} :
    passId payload = some out ↔ isNamed (some payload) = true ∧ payload = out := by
  simp only [passId, Option.ite_none_right_eq_some, Option.some.injEq]

/-- The payload of any other action passes as it is. -/
theorem passPayload_eq_self {name : ActionName} {payload out : Value α}
    (hadd : name ≠ .addElement) (hupdate : name ≠ .updateElement) (hframe : name ≠ .addKeyframe)
    (h : passPayload name payload = .ok (some out)) : out = payload := by
  cases name with
  | addElement => exact absurd rfl hadd
  | updateElement => exact absurd rfl hupdate
  | addKeyframe => exact absurd rfl hframe
  | setDuration | setSpeed | setTime => exact (passNumber_eq_some_iff.1 h).2.symm
  | toFront | toBack | forward | backward =>
      exact (passId_eq_some_iff.1 (Except.ok.inj h)).2.symm
  | group | reparent =>
      cases payload with
      | object fields => exact (passReference_eq_some_iff.1 (Except.ok.inj h)).2.symm
      | _ => simp [passPayload] at h
  | setArtboard =>
      cases payload with
      | object fields => exact (Option.some.inj (Except.ok.inj h)).symm
      | _ => simp [passPayload] at h
  | setPlaying =>
      cases payload with
      | bool b => exact (Option.some.inj (Except.ok.inj h)).symm
      | _ => simp [passPayload] at h

theorem pass_eq_some_iff {a out : Value α} :
    pass a = .ok (some out) ↔
      ∃ fields, a = .object fields ∧ ∃ name, ActionName.ofValue? a = some name ∧
        ∃ payload, Fields.get? fields "payload" = some payload ∧
          ∃ passed, passPayload name payload = .ok (some passed) ∧
            .object (Fields.set fields "payload" passed) = out := by
  cases a with
  | object fields =>
      unfold pass
      cases ActionName.ofValue? (.object fields) with
      | none => simp
      | some name =>
          cases hpayload : Fields.get? fields "payload" with
          | none => simp [hpayload]
          | some payload =>
              simp only [map_eq_ok_iff, Option.map_eq_some_iff, Value.object.injEq,
                Option.some.injEq, hpayload, exists_eq_left']
              constructor
              · rintro ⟨_, hpass, passed, rfl, rfl⟩
                exact ⟨passed, hpass, rfl⟩
              · rintro ⟨passed, hpass, rfl⟩
                exact ⟨_, hpass, passed, rfl, rfl⟩
  | _ => simp [pass]

/-- What passed adds and refers to what it did before, and has the same name. -/
theorem ofValue?_of_pass {a out : Value α} (h : pass a = .ok (some out)) :
    ActionName.ofValue? out = ActionName.ofValue? a := by
  obtain ⟨fields, rfl, name, -, payload, -, passed, -, rfl⟩ := pass_eq_some_iff.1 h
  simp only [ActionName.ofValue?, Value.field?]
  rw [Fields.get?_set_ne (by decide)]

/-! ## Properties in range -/

theorem clampProperty_eq_self_of_unbounded {name : String} {v w : Value α}
    (hname : bounds? (α := α) name = none) (h : clampProperty name v = .ok w) : w = v := by
  unfold clampProperty at h
  rw [hname] at h
  obtain ⟨x?, -, hx⟩ := map_eq_ok_iff.1 h
  cases x? <;> exact hx.symm

/-- A property without bounds stays as it is. -/
theorem get?_clampFields_of_unbounded {props clamped : Fields α}
    (h : clampFields props = .ok clamped) {name : String}
    (hname : bounds? (α := α) name = none) : Fields.get? clamped name = Fields.get? props name := by
  induction props generalizing clamped with
  | nil =>
      cases h
      rfl
  | cons head rest ih =>
      obtain ⟨key, old⟩ := head
      simp only [clampFields, bind_eq_ok_iff, pure_eq_ok, Except.ok.injEq] at h
      obtain ⟨w, hw, others, hothers, rfl⟩ := h
      by_cases hkey : key = name
      · subst hkey
        rw [Fields.get?_cons, Fields.get?_cons, if_pos rfl, if_pos rfl,
          clampProperty_eq_self_of_unbounded hname hw]
      · rw [Fields.get?_cons, Fields.get?_cons, if_neg hkey, if_neg hkey, ih hothers]

theorem get?_id_clampFields {props clamped : Fields α} (h : clampFields props = .ok clamped)
    {v : Value α} (hv : Fields.get? props "id" = some v) : Fields.get? clamped "id" = some v := by
  rw [get?_clampFields_of_unbounded h (by simp [bounds?, shares]), hv]

end Storyboard.Gate
