import Storyboard.Proofs.Contract.Acceptance
import Storyboard.Proofs.Gate.Projection
/-!
# The gate and the contract

What passes the gate keeps the contract of actions in all respects but two: the gate leaves a
property of a new element alone when it is not a number where the contract wants one, and it lets
a keyframe have null for its easing.
-/

namespace Storyboard.Contract

open Schema
open Gate (exactly? Clamped ClampedFields Steady isNamed isOptionalText clampFields clampProperty
  pass passPayload passElement passUpdate passKeyframe)

/-- A number; truth values are none. -/
def IsNumber (v : Value Float) : Prop := v.kind = .int ∨ v.kind = .real

/-! ## Numbers -/

theorem kind_of_exactly? {v : Value Float} {q : Rat} (h : exactly? v = some q) :
    IsNumber v ∧ v.toRat? = some q := by
  cases v with
  | int n => exact ⟨.inl rfl, h⟩
  | real x => exact ⟨.inr rfl, h⟩
  | _ => cases h

theorem compares_exactly {exactly : Rat → Rat → Bool} {nearly : Float → Float → Bool}
    {v w : Value Float} {p q : Rat} (hv : exactly? v = some p) (hw : exactly? w = some q) :
    Value.compares exactly nearly v w = exactly p q := by
  obtain ⟨hkind, hp⟩ := kind_of_exactly? hv
  obtain ⟨hkind', hq⟩ := kind_of_exactly? hw
  have hbool : ¬ (v.kind = .bool ∨ w.kind = .bool) := by
    rintro (h | h)
    · rcases hkind with h' | h' <;> rw [h] at h' <;> cases h'
    · rcases hkind' with h' | h' <;> rw [h] at h' <;> cases h'
  rw [Value.compares, if_neg hbool, hp, hq]

theorem accepts_minimum_exactly {v low : Value Float} {p q : Rat} (hv : exactly? v = some q)
    (hlow : exactly? low = some p) : (minimum low).accepts v = true ↔ p ≤ q := by
  rw [accepts_minimum_iff, Value.less, compares_exactly hv hlow]
  simp

theorem accepts_above_exactly {v low : Value Float} {p q : Rat} (hv : exactly? v = some q)
    (hlow : exactly? low = some p) : (above low).accepts v = true ↔ p < q := by
  rw [accepts_above_iff, Value.atMost, compares_exactly hv hlow]
  simp

theorem accepts_maximum_exactly {v high : Value Float} {p q : Rat} (hv : exactly? v = some q)
    (hhigh : exactly? high = some p) : (maximum high).accepts v = true ↔ q ≤ p := by
  rw [accepts_maximum_iff, Value.less, compares_exactly hhigh hv]
  simp

theorem accepts_number_iff {v : Value Float} :
    (type [.number] : Schema Float).accepts v = true ↔ IsNumber v := by
  rw [accepts_type_iff]
  cases v <;> simp [Value.kind, SchemaType.ofKind, IsNumber]

theorem accepts_numberFrom_iff {v low : Value Float} {more : List (Schema Float)} :
    (numberFrom low more).accepts v = true ↔
      IsNumber v ∧ (minimum low).accepts v = true ∧ ∀ s ∈ more, s.accepts v = true := by
  simp only [numberFrom, accepts_all_iff, List.forall_mem_cons, accepts_number_iff]

theorem exactly?_zero : exactly? (.int 0) = some 0 := rfl

/-- A time that passes. -/
theorem accepts_time {v : Value Float} {x : Float} (h : v.finite? = .ok (some x))
    (hx : ¬ x < 0.0) : (numberFrom (.int 0) : Schema Float).accepts v = true := by
  obtain ⟨q, hq⟩ := Gate.exists_exactly?_of_finite? h
  rw [Gate.lt_low_iff h hq Gate.isLow_zero] at hx
  rw [accepts_numberFrom_iff, accepts_minimum_exactly hq exactly?_zero]
  exact ⟨(kind_of_exactly? hq).1, not_lt.1 hx, by simp⟩

/-- A duration or a speed that passes. -/
theorem accepts_length {v : Value Float} {x : Float} (h : v.finite? = .ok (some x))
    (hx : ¬ x ≤ 0.0) :
    (all [type [.number], above (.int 0)] : Schema Float).accepts v = true := by
  obtain ⟨q, hq⟩ := Gate.exists_exactly?_of_finite? h
  rw [Gate.le_zero_iff h hq] at hx
  simp only [accepts_all_iff, List.forall_mem_cons, accepts_number_iff,
    accepts_above_exactly hq exactly?_zero]
  exact ⟨(kind_of_exactly? hq).1, not_le.1 hx, by simp⟩

/-! ## Names -/

theorem accepts_someText {v? : Option (Value Float)} {v : Value Float} (hv : v? = some v)
    (h : isNamed v? = true) : (someText : Schema Float).accepts v = true := by
  subst hv
  cases v with
  | text s =>
    obtain ⟨c, hc, -⟩ := Gate.isNamed_text_iff.1 h
    have hne : s ≠ "" := by
      rintro rfl
      simp at hc
    simp [someText, accepts_all_iff, accepts_type_iff, accepts_nonEmpty_iff, Value.kind,
      SchemaType.ofKind, Value.text?, hne]
  | _ => simp [isNamed] at h

theorem exists_of_isNamed {v? : Option (Value Float)} (h : isNamed v? = true) :
    ∃ v, v? = some v := by
  cases v? with
  | none => simp [isNamed] at h
  | some v => exact ⟨v, rfl⟩

/-! ## Payloads -/

/-- The properties of a new element that the contract limits, and how it does. -/
def measures : List (String × Schema Float) := [
  ("opacity", numberFrom (.int 0) [maximum (.int 1)]),
  ("scale", numberFrom (.real 0.01)),
  ("strokeWidth", numberFrom (.int 0)),
  ("fontSize", numberFrom (.int 1))]

/-- The limited properties are within what the contract says about them. -/
def Measured (props : Fields Float) : Prop :=
  ∀ measure ∈ measures, ∀ v, Fields.get? props measure.1 = some v → measure.2.accepts v = true

theorem accepts_object (fields : Fields Float) :
    (type [.object] : Schema Float).accepts (.object fields) = true := by
  rw [accepts_type_iff]
  exact List.mem_singleton.2 rfl

theorem accepts_required {names : List String} {fields : Fields Float}
    (h : ∀ name ∈ names, ∃ v, Fields.get? fields name = some v) :
    (required names : Schema Float).accepts (.object fields) = true :=
  accepts_required_iff.2 fun name hname => Option.isSome_iff_exists.2 (h name hname)

theorem accepts_parent {fields : Fields Float}
    (h : isOptionalText (Fields.get? fields "targetParentId") = true) :
    ∀ field, (Value.object fields).field? "targetParentId" = some field →
      (type [.string, .null] : Schema Float).accepts field = true := by
  intro field hfield
  rw [Value.field?] at hfield
  rw [hfield] at h
  rw [accepts_type_iff]
  cases field <;> simp [isOptionalText, Value.kind, SchemaType.ofKind] at h ⊢

theorem accepts_props_iff {props : Fields Float} (hid : isNamed (Fields.get? props "id") = true) :
    (all [type [.object], required ["id"], properties (("id", someText) :: measures)]).accepts
      (.object props) = true ↔ Measured props := by
  obtain ⟨id, hid'⟩ := exists_of_isNamed hid
  have hrequired : (required ["id"] : Schema Float).accepts (.object props) = true :=
    accepts_required fun name hname => by
      obtain rfl := List.mem_singleton.1 hname
      exact ⟨id, hid'⟩
  simp only [accepts_all_iff, List.forall_mem_cons, accepts_object, hrequired,
    accepts_properties_iff, forall_field_iff hid', accepts_someText hid' hid, true_and,
    List.not_mem_nil, false_implies, implies_true, and_true]
  rfl

theorem accepts_element_iff {fields props : Fields Float}
    (h : passElement fields = .ok (some (.object fields)))
    (hprops : Fields.get? fields "props" = some (.object props)) :
    (element : Schema Float).accepts (.object fields) = true ↔ Measured props := by
  obtain ⟨hkind, props', hprops', hid, hparent, -⟩ := Gate.passElement_eq_self_iff.1 h
  obtain rfl : props = props' := by simpa [hprops] using hprops'
  obtain ⟨kind, hmem, hkind⟩ := Gate.isOneOf_eq_true_iff.1 hkind
  have hrequired : (required ["type", "props"] : Schema Float).accepts (.object fields) = true :=
    accepts_required (by simp [hkind, hprops])
  have hlisted : (oneOf (ElementKind.inventory.map ElementKind.name) : Schema Float).accepts
      (.text kind) = true := accepts_oneOf_iff.2 ⟨kind, hmem, rfl⟩
  rw [← accepts_props_iff hid]
  rw [element, accepts_all_iff, List.forall_mem_cons, List.forall_mem_cons,
    List.forall_mem_singleton, accepts_properties_iff, List.forall_mem_cons, List.forall_mem_cons,
    List.forall_mem_singleton, forall_field_iff hkind, forall_field_iff hprops]
  exact ⟨fun h => h.2.2.2.1, fun h => ⟨accepts_object _, hrequired, hlisted, h,
    accepts_parent hparent⟩⟩

theorem accepts_update {fields : Fields Float}
    (h : passUpdate fields = .ok (some (.object fields))) :
    (update : Schema Float).accepts (.object fields) = true := by
  obtain ⟨hid, props, hprops, -⟩ := Gate.passUpdate_eq_self_iff.1 h
  obtain ⟨id, hid'⟩ := exists_of_isNamed hid
  have hrequired : (required ["id", "props"] : Schema Float).accepts (.object fields) = true :=
    accepts_required (by simp [hid', hprops])
  rw [update, accepts_all_iff, List.forall_mem_cons, List.forall_mem_cons,
    List.forall_mem_singleton, accepts_properties_iff, List.forall_mem_cons,
    List.forall_mem_singleton, forall_field_iff hid', forall_field_iff hprops]
  exact ⟨accepts_object _, hrequired, accepts_someText hid' hid, accepts_object _⟩

/-- Names of properties are not empty. -/
theorem accepts_property {name : String} (h : name ∈ Gate.animatable) :
    (someText : Schema Float).accepts (.text name) = true := by
  have hne : name ≠ "" := by
    rintro rfl
    exact absurd h (by decide)
  simp [someText, accepts_all_iff, accepts_type_iff, accepts_nonEmpty_iff, Value.kind,
    SchemaType.ofKind, Value.text?, hne]

theorem accepts_easing_iff {fields : Fields Float}
    (h : isOptionalText (Fields.get? fields "easing") = true) :
    (∀ field, (Value.object fields).field? "easing" = some field →
      (type [.string] : Schema Float).accepts field = true) ↔
      Fields.get? fields "easing" ≠ some .null := by
  rw [Value.field?]
  generalize Fields.get? fields "easing" = v? at *
  rcases v? with _ | v
  · simp
  · cases v <;> simp [isOptionalText, accepts_type_iff, Value.kind, SchemaType.ofKind] at h ⊢

theorem accepts_keyframe_iff {fields : Fields Float}
    (h : passKeyframe fields = .ok (some (.object fields))) :
    (keyframe : Schema Float).accepts (.object fields) = true ↔
      Fields.get? fields "easing" ≠ some .null := by
  obtain ⟨hid, name, hmem, hproperty, x, hx, hlate, value, hvalue, heasing, -⟩ :=
    Gate.passKeyframe_eq_self_iff.1 h
  obtain ⟨id, hid'⟩ := exists_of_isNamed hid
  obtain ⟨time, htime⟩ : ∃ time, Fields.get? fields "time" = some time := by
    cases htime : Fields.get? fields "time" with
    | some time => exact ⟨time, rfl⟩
    | none =>
      rw [Quality.fieldOf, htime] at hx
      cases Except.ok.inj hx
  rw [Quality.fieldOf, htime, Option.getD_some] at hx
  have hrequired : (required ["elementId", "property", "time", "value"] : Schema Float).accepts
      (.object fields) = true := accepts_required (by simp [hid', hproperty, htime, hvalue])
  rw [keyframe, accepts_all_iff, List.forall_mem_cons, List.forall_mem_cons,
    List.forall_mem_singleton, accepts_properties_iff, List.forall_mem_cons,
    List.forall_mem_cons, List.forall_mem_cons, List.forall_mem_singleton,
    forall_field_iff hid', forall_field_iff hproperty, forall_field_iff htime,
    accepts_easing_iff heasing]
  exact ⟨fun h => h.2.2.2.2.2, fun h => ⟨accepts_object _, hrequired, accepts_someText hid' hid,
    accepts_property hmem, accepts_time hx hlate, h⟩⟩

theorem accepts_reference {fields : Fields Float}
    (h : isNamed (Fields.get? fields "elementId") = true) :
    (reference : Schema Float).accepts (.object fields) = true := by
  obtain ⟨id, hid⟩ := exists_of_isNamed h
  have hrequired : (required ["elementId"] : Schema Float).accepts (.object fields) = true :=
    accepts_required (by simp [hid])
  rw [reference, accepts_all_iff, List.forall_mem_cons, List.forall_mem_cons,
    List.forall_mem_singleton, accepts_properties_iff, List.forall_mem_singleton,
    forall_field_iff hid]
  exact ⟨accepts_object _, hrequired, accepts_someText hid h⟩

/-! ## Actions that pass -/

/-- A property of the new element that an action adds. -/
def property? (a : Value Float) (name : String) : Option (Value Float) :=
  ((a.field? "payload").bind (·.field? "props")).bind (·.field? name)

/-- The easing that the payload of an action has. -/
def easing? (a : Value Float) : Option (Value Float) :=
  (a.field? "payload").bind (·.field? "easing")

/-- What the contract asks of an action beyond passing the gate: the limited properties of a new
element are numbers, and a keyframe does not have null for its easing. -/
structure Conforming (a : Value Float) : Prop where
  measured : ActionName.ofValue? a = some .addElement →
    ∀ name ∈ ["opacity", "scale", "strokeWidth", "fontSize"], ∀ v, property? a name = some v →
      IsNumber v
  eased : ActionName.ofValue? a = some .addKeyframe → easing? a ≠ some .null

/-- All other payloads that pass are accepted. -/
theorem accepts_payload {name : ActionName} {payload : Value Float} (hadd : name ≠ .addElement)
    (hframe : name ≠ .addKeyframe) (h : passPayload name payload = .ok (some payload)) :
    (payloadRule name : Schema Float).accepts payload = true := by
  cases name with
  | addElement => exact absurd rfl hadd
  | addKeyframe => exact absurd rfl hframe
  | updateElement =>
    obtain ⟨fields, rfl⟩ := Gate.object_of_passPayload (.inr (.inl rfl)) h
    exact accepts_update h
  | setDuration | setSpeed =>
    obtain ⟨⟨x, hx, hpositive⟩, -⟩ := Gate.passNumber_eq_some_iff.1 h
    exact accepts_length hx (by simpa [Gate.positive] using hpositive)
  | setTime =>
    obtain ⟨⟨x, hx, hlate⟩, -⟩ := Gate.passNumber_eq_some_iff.1 h
    exact accepts_time hx (by simpa [Gate.nonnegative] using hlate)
  | toFront | toBack | forward | backward =>
    have hnamed := (Gate.passId_eq_some_iff.1 (Except.ok.inj h)).1
    exact accepts_all_iff.1 (accepts_someText rfl hnamed) _ List.mem_cons_self
  | setArtboard =>
    cases payload with
    | object fields => exact accepts_object fields
    | _ => simp [passPayload] at h
  | setPlaying =>
    cases payload with
    | bool b =>
      show (type [.boolean] : Schema Float).accepts (.bool b) = true
      rw [accepts_type_iff]
      exact List.mem_singleton.2 rfl
    | _ => simp [passPayload] at h
  | group | reparent =>
    cases payload with
    | object fields =>
      exact accepts_reference (Gate.passReference_eq_some_iff.1 (Except.ok.inj h)).1
    | _ => simp [passPayload] at h

/-- A steady action keeps the contract when its limited properties are measured and its easing is
not null. -/
theorem accepts_iff_of_steady {a : Value Float} (h : Steady a) :
    action.schema.accepts a = true ↔
      (ActionName.ofValue? a = some .addElement → ∀ m ∈ measures, ∀ v,
        property? a m.1 = some v → m.2.accepts v = true) ∧
      (ActionName.ofValue? a = some .addKeyframe → easing? a ≠ some .null) := by
  obtain ⟨name, payload, hname, hpayload, hpass⟩ := Gate.steady_iff.1 h
  cases a with
  | object fields =>
    rw [accepts_action_iff hname hpayload]
    simp only [hname, property?, easing?, hpayload, Option.bind_some, Option.some.injEq]
    by_cases hadd : name = .addElement
    · subst hadd
      obtain ⟨inner, rfl⟩ := Gate.object_of_passPayload (.inl rfl) hpass
      obtain ⟨-, props, hprops, -⟩ := Gate.passElement_eq_self_iff.1 hpass
      simp only [Value.field?, hprops, Option.bind_some, forall_const, reduceCtorEq,
        false_implies, and_true]
      exact accepts_element_iff hpass hprops
    · by_cases hframe : name = .addKeyframe
      · subst hframe
        obtain ⟨inner, rfl⟩ := Gate.object_of_passPayload (.inr (.inr rfl)) hpass
        simp only [Value.field?, forall_const, reduceCtorEq, false_implies, true_and]
        exact accepts_keyframe_iff hpass
      · simp [hadd, hframe, accepts_payload hadd hframe hpass]
  | _ => simp [Value.field?] at hpayload

/-! ## Measures of finite values -/

theorem isFinite_of_get? {fields : Fields Float} {name : String} {v : Value Float}
    (h : (Value.object fields).isFinite = true) (hv : Fields.get? fields name = some v) :
    v.isFinite = true := by
  rw [Value.isFinite] at h
  induction fields with
  | nil => simp at hv
  | cons head rest ih =>
    obtain ⟨key, value⟩ := head
    rw [Value.haveFinite, Bool.and_eq_true] at h
    by_cases hkey : key = name
    · simp only [Fields.get?_cons, hkey, if_true, Option.some.injEq] at hv
      exact hv ▸ h.1
    · simp only [Fields.get?_cons, hkey, if_false] at hv
      exact ih h.2 hv

theorem isFinite_of_field? {v w : Value Float} {name : String} (h : v.isFinite = true)
    (hw : v.field? name = some w) : w.isFinite = true := by
  cases v with
  | object fields => exact isFinite_of_get? h hw
  | _ => cases hw

theorem exactly?_of_isNumber {v : Value Float} (hv : IsNumber v) (hfinite : v.isFinite = true) :
    ∃ q, exactly? v = some q := by
  cases v with
  | int n => exact ⟨_, rfl⟩
  | real x => exact Option.isSome_iff_exists.1 hfinite
  | _ => rcases hv with h | h <;> cases h

theorem isNumber_of_clamped {name : String} {v w : Value Float} (h : Clamped name v w) :
    IsNumber w ↔ IsNumber v := by
  cases h with
  | kept => rfl
  | lifted _ hv _ => exact iff_of_true (.inr rfl) (kind_of_exactly? hv).1
  | capped _ hv _ _ => exact iff_of_true (.inr rfl) (kind_of_exactly? hv).1

/-- A clamped property keeps its limits when it is a number. -/
theorem accepts_limits_iff {name : String} {b : Bounds Float} {v w low : Value Float}
    {more : List (Schema Float)} {p : Rat} (hb : Gate.bounds? name = some b)
    (hends : Gate.IsLow b.low p) (hlow : exactly? low = some p)
    (hmore : ∀ s ∈ more, s = maximum (.int 1) ∧ ∃ e, b.high = some e)
    (h : Clamped name v w) (hfinite : v.isFinite = true) :
    (numberFrom low more).accepts w = true ↔ IsNumber v := by
  rw [accepts_numberFrom_iff, isNumber_of_clamped h]
  refine ⟨fun h => h.1, fun hv => ⟨hv, ?_⟩⟩
  obtain ⟨q, hq⟩ := exactly?_of_isNumber hv hfinite
  obtain ⟨r, hr, hpr, hhigh⟩ := Gate.within_of_clamped hb hends hq h
  refine ⟨(accepts_minimum_exactly hr hlow).2 hpr, fun s hs => ?_⟩
  obtain ⟨rfl, e, he⟩ := hmore s hs
  exact (accepts_maximum_exactly hr rfl).2 (hhigh e he)

theorem accepts_measure_iff {m : String × Schema Float} {v w : Value Float} (hm : m ∈ measures)
    (h : Clamped m.1 v w) (hfinite : v.isFinite = true) :
    m.2.accepts w = true ↔ IsNumber v := by
  simp only [measures, List.mem_cons, List.not_mem_nil, or_false] at hm
  rcases hm with rfl | rfl | rfl | rfl
  · exact accepts_limits_iff (b := ⟨0.0, some 1.0⟩) (by simp [Gate.bounds?, Gate.shares])
      Gate.isLow_zero exactly?_zero (by simp) h hfinite
  · obtain ⟨p, hp⟩ := Gate.isLow_hundredth
    exact accepts_limits_iff (b := ⟨0.01, none⟩) (by simp [Gate.bounds?, Gate.shares])
      hp hp.1 (by simp) h hfinite
  · exact accepts_limits_iff (b := ⟨0.0, none⟩) (by simp [Gate.bounds?, Gate.shares])
      Gate.isLow_zero exactly?_zero (by simp) h hfinite
  · exact accepts_limits_iff (b := ⟨1.0, none⟩) (by simp [Gate.bounds?, Gate.shares])
      Gate.isLow_one rfl (by simp) h hfinite

/-- The properties of a new element are clamped one by one. -/
theorem properties_of_pass {a b : Value Float} (hadd : ActionName.ofValue? a = some .addElement)
    (h : pass a = .ok (some b)) :
    ∃ props clamped, property? a = Fields.get? props ∧ property? b = Fields.get? clamped ∧
      ClampedFields props clamped := by
  obtain ⟨hname, hpayload, hclamped⟩ := Gate.clampedAction_of_pass h
  rw [hadd, Option.some.injEq] at hname
  subst hname
  cases hclamped with
  | @props _ fields props clamped _ hprops hclamped =>
    refine ⟨props, clamped, ?_, ?_, hclamped⟩ <;> funext name
    · simp [property?, Value.field?, hpayload, hprops]
    · simp [property?, Value.field?, Fields.get?_set_self]
  | same hne => exact absurd rfl hne

theorem easing?_of_pass {a b : Value Float} (h : pass a = .ok (some b)) :
    easing? b = easing? a := by
  obtain ⟨-, hpayload, hclamped⟩ := Gate.clampedAction_of_pass h
  simp only [easing?, Value.field?, hpayload, Fields.get?_set_self, Option.bind_some]
  cases hclamped with
  | props => exact Fields.get?_set_ne (by decide)
  | value => exact Fields.get?_set_ne (by decide)
  | same => rfl

theorem conforming_of_pass_iff {a b : Value Float} (h : pass a = .ok (some b)) :
    Conforming b ↔ Conforming a := by
  have hname := Gate.ofValue?_of_pass h
  have heasing := easing?_of_pass h
  constructor
  · rintro ⟨hmeasured, heased⟩
    refine ⟨fun hadd name hmem v hv => ?_, by rwa [hname, heasing] at heased⟩
    obtain ⟨props, clamped, ha, hb, hclamped⟩ := properties_of_pass hadd h
    obtain ⟨w, hw, hvw⟩ := Gate.clamped_get?_of_get? hclamped (ha ▸ hv)
    exact (isNumber_of_clamped hvw).1 (hmeasured (hname.trans hadd) name hmem w (hb ▸ hw))
  · rintro ⟨hmeasured, heased⟩
    refine ⟨fun hadd name hmem w hw => ?_, by rwa [hname, heasing]⟩
    rw [hname] at hadd
    obtain ⟨props, clamped, ha, hb, hclamped⟩ := properties_of_pass hadd h
    obtain ⟨v, hv, hvw⟩ := Gate.get?_of_clampedFields hclamped (hb ▸ hw)
    exact (isNumber_of_clamped hvw).2 (hmeasured hadd name hmem v (ha ▸ hv))

theorem isFinite_of_property? {a v : Value Float} {name : String} (h : a.isFinite = true)
    (hv : property? a name = some v) : v.isFinite = true := by
  obtain ⟨props, hprops, hv⟩ := Option.bind_eq_some_iff.1 hv
  obtain ⟨payload, hpayload, hprops⟩ := Option.bind_eq_some_iff.1 hprops
  exact isFinite_of_field? (isFinite_of_field? (isFinite_of_field? h hpayload) hprops) hv

/-- What passes keeps the contract exactly when it is conforming, which the gate does not change:
the limited properties of a new element are numbers and the easing of a keyframe is not null. -/
theorem accepts_iff_conforming {a b : Value Float} (hfinite : a.isFinite = true)
    (h : pass a = .ok (some b)) :
    (action.schema.accepts b = true ↔ Conforming b) ∧ (Conforming b ↔ Conforming a) := by
  refine ⟨?_, conforming_of_pass_iff h⟩
  have hname := Gate.ofValue?_of_pass h
  have hlisted : ∀ name, name ∈ ["opacity", "scale", "strokeWidth", "fontSize"] ↔
      ∃ m ∈ measures, m.1 = name := by
    intro name
    simp [measures, eq_comm]
  -- Each limited property was clamped from a finite value.
  have hmeasure : ActionName.ofValue? b = some .addElement → ∀ m ∈ measures, ∀ w,
      property? b m.1 = some w → (m.2.accepts w = true ↔ IsNumber w) := by
    intro hadd m hm w hw
    obtain ⟨props, clamped, ha, hb, hclamped⟩ := properties_of_pass (hname ▸ hadd) h
    obtain ⟨v, hv, hvw⟩ := Gate.get?_of_clampedFields hclamped (hb ▸ hw)
    rw [isNumber_of_clamped hvw]
    exact accepts_measure_iff hm hvw (isFinite_of_property? hfinite (ha ▸ hv))
  rw [accepts_iff_of_steady (Gate.steady_of_pass h)]
  constructor
  · rintro ⟨hmeasured, heased⟩
    refine ⟨fun hadd name hmem w hw => ?_, heased⟩
    obtain ⟨m, hm, rfl⟩ := (hlisted name).1 hmem
    exact (hmeasure hadd m hm w hw).1 (hmeasured hadd m hm w hw)
  · rintro ⟨hmeasured, heased⟩
    refine ⟨fun hadd m hm w hw => ?_, heased⟩
    exact (hmeasure hadd m hm w hw).2 (hmeasured hadd m.1 ((hlisted m.1).2 ⟨m, hm, rfl⟩) w hw)

/-- A keyframe of an opacity. -/
def fading (value easing : Value Float) : Value Float := .object [
  ("type", .text "ADD_KEYFRAME"),
  ("payload", .object [
    ("elementId", .text "a"), ("property", .text "opacity"), ("time", .int 1),
    ("value", value), ("easing", easing)])]

/-- A keyframe with null for its easing passes and is not accepted. -/
theorem accepts_iff_conforming_fading :
    (fading (.real 2.5) .null).isFinite = true ∧
      pass (fading (.real 2.5) .null) = .ok (some (fading (.real 1.0) .null)) ∧
      (action.schema.accepts (fading (.real 1.0) .null) = true ↔
        Conforming (fading (.real 1.0) .null)) ∧
      action.schema.accepts (fading (.real 1.0) .null) = false := by
  have hfinite : (fading (.real 2.5) .null).isFinite = true := by rfl
  have hpass : pass (fading (.real 2.5) .null) = .ok (some (fading (.real 1.0) .null)) := by rfl
  have hiff := (accepts_iff_conforming hfinite hpass).1
  refine ⟨hfinite, hpass, hiff, Bool.eq_false_iff.2 fun haccepts => ?_⟩
  exact (hiff.1 haccepts).eased rfl rfl

end Storyboard.Contract
