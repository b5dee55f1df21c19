import Storyboard.Proofs.Composition.Carriage
import Storyboard.Proofs.Draft.Wholeless
import Storyboard.Proofs.Gate.Faults
import Storyboard.Proofs.Gate.Sequence
/-!
# Actions that the gate has an answer for

An action without whole numbers passes or is dropped, and never stops the gate.  That stays so when
it passes, when its placeholders are moved on and when it is placed under a parent.
-/

namespace Storyboard.Gate

open Quality (fieldOf payloadOf)
open Placeholder (raised)

variable {α : Type} [Scalar α]

/-- The gate does not fault on the action; a new element names its parent by a text, if at all, and
what the composer looks up is no list and no object. -/
structure Answerable (a : Value α) : Prop where
  unfaulty : ∀ f, ¬ Faulty a f
  parent : ∀ id, addedId? a = some id →
    isOptionalText (Fields.get? (payloadOf a) "targetParentId") = true
  searchable : ∀ v, Fields.get? (payloadOf a) "property" = some v → v.isContainer = false

theorem passFrom_returns {index : Nat} {as : List (Value α)} (h : ∀ a ∈ as, Answerable a) :
    ∃ r, passFrom index as = .ok r := by
  cases hr : passFrom index as with
  | ok r => exact ⟨r, rfl⟩
  | error f =>
      obtain ⟨before, a, after, rfl, -, hfaulty⟩ := passFrom_eq_error_iff.1 hr
      exact absurd hfaulty ((h a (by simp)).unfaulty f)

theorem passAll_returns {as : List (Value α)} (h : ∀ a ∈ as, Answerable a) :
    ∃ r, passAll as = .ok r :=
  passFrom_returns h

theorem unfaulty_of_steady {a : Value α} (h : Steady a) (f : Fault) : ¬ Faulty a f := by
  intro hfaulty
  cases (pass_eq_error_iff.2 hfaulty).symm.trans h

/-! ## What keeps an action answerable -/

theorem answerable_raised {a : Value α} (k : Nat) (h : Answerable a) :
    Answerable (raised k a) where
  unfaulty f hf := by
    rw [← pass_eq_error_iff, pass_raised, map_eq_error_iff] at hf
    exact h.unfaulty f (pass_eq_error_iff.1 hf)
  parent id hid := by
    rw [addedId?_raised] at hid
    obtain ⟨id', hid', -⟩ := Option.map_eq_some_iff.1 hid
    rw [payloadOf_raised, Placeholder.get?_raisedFields, isOptionalText_raised]
    exact h.parent id' hid'
  searchable v hv := by
    rw [payloadOf_raised, Placeholder.get?_raisedFields] at hv
    obtain ⟨w, hw, rfl⟩ := Option.map_eq_some_iff.1 hv
    have hplain := h.searchable w hw
    cases w with
    | list items => cases hplain
    | object fields => cases hplain
    | _ => rfl

theorem answerable_placeUnder {a : Value α} {id : String} (parent : String)
    (hadds : addedId? a = some id) (h : Answerable a) :
    Answerable (Composition.placeUnder (some parent) a) := by
  obtain ⟨hname, payload, hpayload, -⟩ := addedId?_eq_some_iff.1 hadds
  have hplaced := payload_placeUnder (some parent) hpayload
  have hother : ∀ name ≠ "targetParentId",
      Fields.get? (Fields.set payload "targetParentId" (.ofText? (some parent))) name =
        Fields.get? payload name := fun name hne => Fields.get?_set_ne hne.symm
  refine ⟨fun f hf => ?_, fun _ _ => ?_, fun v hv => ?_⟩
  · -- A fault is in the kind or in the properties, which stay.
    obtain ⟨name, _, hname', hsame, hazard⟩ := hf
    rw [ofValue?_placeUnder, hname, Option.some.injEq] at hname'
    rw [hplaced, Option.some.injEq] at hsame
    subst hname' hsame
    refine h.unfaulty f ⟨.addElement, .object payload, hname, hpayload, ?_⟩
    have hoptional := h.parent id hadds
    rw [payloadOf_eq hpayload] at hoptional
    cases hazard with
    | kind hkind hv => exact .kind (by rwa [hother _ (by decide)] at hkind) hv
    | newProperty hkind hprops hid _ hlarge =>
        rw [hother _ (by decide)] at hkind hprops
        exact .newProperty hkind hprops hid hoptional hlarge
  · rw [payloadOf_eq hplaced, Fields.get?_set_self]
    rfl
  · rw [payloadOf_eq hplaced, hother _ (by decide), ← payloadOf_eq hpayload] at hv
    exact h.searchable v hv

theorem portable_answerable : Composition.Portable (Answerable (α := α)) where
  raised k _ h := answerable_raised k h
  placed _ parent _ hadds h := answerable_placeUnder parent hadds h

/-- The gate changes properties and values only. -/
theorem get?_payloadOf_of_pass {a b : Value α} (h : pass a = .ok (some b)) {name : String}
    (hprops : name ≠ "props") (hvalue : name ≠ "value") :
    Fields.get? (payloadOf b) name = Fields.get? (payloadOf a) name := by
  obtain ⟨action, payload, passed, -, -, hpayload, hpassed, hpass⟩ := payload_of_pass h
  by_cases hadd : action = .addElement
  · subst hadd
    obtain ⟨fields, rfl⟩ := object_of_passPayload (.inl rfl) hpass
    obtain ⟨-, props, -, -, -, clamped, -, rfl⟩ := passElement_eq_some_iff.1 hpass
    rw [payloadOf_eq hpayload, payloadOf_eq hpassed, Fields.get?_set_ne hprops.symm]
  · by_cases hupdate : action = .updateElement
    · subst hupdate
      obtain ⟨fields, rfl⟩ := object_of_passPayload (.inr (.inl rfl)) hpass
      obtain ⟨-, props, -, clamped, -, rfl⟩ := passUpdate_eq_some_iff.1 hpass
      rw [payloadOf_eq hpayload, payloadOf_eq hpassed, Fields.get?_set_ne hprops.symm]
    · by_cases hframe : action = .addKeyframe
      · subst hframe
        obtain ⟨fields, rfl⟩ := object_of_passPayload (.inr (.inr rfl)) hpass
        obtain ⟨-, _, -, -, _, -, -, _, -, -, clamped, -, rfl⟩ := passKeyframe_eq_some_iff.1 hpass
        rw [payloadOf_eq hpayload, payloadOf_eq hpassed, Fields.get?_set_ne hvalue.symm]
      · rw [payloadOf, payloadOf, hpayload, hpassed,
          passPayload_eq_self hadd hupdate hframe hpass]

theorem answerable_of_pass {a b : Value Float} (h : pass a = .ok (some b)) (ha : Answerable a) :
    Answerable b where
  unfaulty := unfaulty_of_steady (steady_of_pass h)
  parent id hid := by
    rw [get?_payloadOf_of_pass h (by decide) (by decide)]
    exact ha.parent id (by rw [← addedId?_of_pass h, hid])
  searchable v hv := by
    rw [get?_payloadOf_of_pass h (by decide) (by decide)] at hv
    exact ha.searchable v hv

/-! ## Actions of the compiler -/

omit [Scalar α] in
theorem wholeless_of_mem {props : Fields α} (h : ∀ field ∈ props, Wholeless field)
    (name : String) (n : Int) : (name, .int n) ∉ props :=
  fun hmem => h _ hmem rfl

theorem unfaulty_toValue {a : Action α} (h : a.Wholeless) (f : Fault) : ¬ Faulty a.toValue f := by
  rintro ⟨name, payload, hname, hpayload, hazard⟩
  cases a with
  | add kind id props parent =>
      simp only [Action.toValue, ofValue?_wire, Option.some.injEq] at hname
      simp only [Action.toValue, Action.wire, Value.field?, Fields.get?_cons, String.reduceEq,
        if_false, if_true, Option.some.injEq] at hpayload
      subst hname hpayload
      cases hazard with
      | kind hkind hv =>
          obtain rfl := Option.some.inj hkind
          cases hv
      | newProperty _ hprops _ _ hlarge =>
          obtain rfl := Value.object.inj (Option.some.inj hprops)
          obtain ⟨other, n, hmem, -⟩ := hlarge
          rcases List.mem_cons.1 hmem with heq | hmem
          · cases heq
          · exact wholeless_of_mem h other n hmem
  | update id props =>
      simp only [Action.toValue, ofValue?_wire, Option.some.injEq] at hname
      simp only [Action.toValue, Action.wire, Value.field?, Fields.get?_cons, String.reduceEq,
        if_false, if_true, Option.some.injEq] at hpayload
      subst hname hpayload
      cases hazard with
      | property _ hprops hlarge =>
          obtain rfl := Value.object.inj (Option.some.inj hprops)
          obtain ⟨other, n, hmem, -⟩ := hlarge
          exact wholeless_of_mem h other n hmem
  | board props =>
      simp only [Action.toValue, ofValue?_wire, Option.some.injEq] at hname
      subst hname
      cases hazard
      rename_i hnumber
      simp at hnumber
  | keyframe k =>
      simp only [Action.toValue, ofValue?_wire, Option.some.injEq] at hname
      simp only [Action.toValue, Action.wire, Value.field?, Fields.get?_cons, String.reduceEq,
        if_false, if_true, Option.some.injEq] at hpayload
      subst hname hpayload
      cases hazard with
      | track _ hproperty hv =>
          obtain rfl := Option.some.inj hproperty
          cases hv
      | time _ _ htime _ => cases Option.some.inj htime
      | value _ _ _ _ hvalue _ _ =>
          have hsame : k.value = _ := Option.some.inj hvalue
          exact h (congrArg Value.kind hsame)

theorem answerable_toValue {a : Action α} (h : a.Wholeless) : Answerable a.toValue where
  unfaulty := unfaulty_toValue h
  parent id hid := by
    cases a with
    | add kind id' props parent =>
        rw [Action.toValue, payloadOf_wire]
        exact isOptionalText_parent parent
    | _ => simp [Action.added?] at hid
  searchable v hv := by
    cases a with
    | add kind id props parent => cases parent <;> cases hv
    | update id props => cases hv
    | board props =>
        rw [Action.toValue, payloadOf_wire] at hv
        exact h _ (Fields.mem_of_get? hv)
    | keyframe k =>
        obtain rfl := Option.some.inj hv
        rfl

theorem every_answerable {as : List (Action α)} (h : AllWholeless as) :
    Composition.Every Answerable (as.map Action.toValue) :=
  List.forall_mem_map.2 fun a ha => answerable_toValue (h a ha)

/-! ## Placeholders of what passed -/

section

open Placeholder (runs fieldRuns itemRuns)

variable {ds : List Char}

omit [Scalar α] in
theorem mem_fieldRuns_set {fields : Fields α} {name : String} {v w : Value α}
    (hv : Fields.get? fields name = some v) (hw : ds ∈ runs w → ds ∈ runs v)
    (h : ds ∈ fieldRuns (Fields.set fields name w)) : ds ∈ fieldRuns fields := by
  induction fields with
  | nil => simp at hv
  | cons head rest ih =>
      obtain ⟨key, old⟩ := head
      by_cases hkey : key = name
      · simp only [Fields.get?_cons, hkey, if_true, Option.some.injEq] at hv
        subst hv
        simp only [Fields.set, hkey, if_true, fieldRuns, List.mem_append] at h ⊢
        exact h.imp hw fun h => h
      · simp only [Fields.get?_cons, hkey, if_false] at hv
        simp only [Fields.set, hkey, if_false, fieldRuns, List.mem_append] at h ⊢
        exact h.imp (fun h => h) (ih hv)

/-- A property that is moved into its range becomes a scalar. -/
theorem mem_runs_of_clampProperty {name : String} {v w : Value α}
    (h : clampProperty name v = .ok w) (hds : ds ∈ runs w) : ds ∈ runs v := by
  unfold clampProperty at h
  obtain ⟨x?, -, rfl⟩ := map_eq_ok_iff.1 h
  split at hds
  · rename_i x b _
    cases hbeyond : b.beyond? x with
    | none => rwa [hbeyond] at hds
    | some e =>
        rw [hbeyond] at hds
        cases hds
  · exact hds

theorem mem_fieldRuns_of_clampFields {props clamped : Fields α}
    (h : clampFields props = .ok clamped) (hds : ds ∈ fieldRuns clamped) :
    ds ∈ fieldRuns props := by
  induction props generalizing clamped with
  | nil =>
      cases h
      cases hds
  | cons head rest ih =>
      obtain ⟨name, v⟩ := head
      simp only [clampFields, bind_eq_ok_iff, pure_eq_ok, Except.ok.injEq] at h
      obtain ⟨w, hw, others, hothers, rfl⟩ := h
      simp only [fieldRuns, List.mem_append] at hds ⊢
      exact hds.imp (mem_runs_of_clampProperty hw) (ih hothers)

/-- What passed holds no placeholder that it did not hold before. -/
theorem mem_runs_of_pass {a b : Value α} (h : pass a = .ok (some b)) (hds : ds ∈ runs b) :
    ds ∈ runs a := by
  obtain ⟨fields, rfl, name, -, payload, hpayload, passed, hpass, rfl⟩ := pass_eq_some_iff.1 h
  refine mem_fieldRuns_set hpayload (fun hpassed => ?_) hds
  by_cases hadd : name = .addElement
  · subst hadd
    obtain ⟨inner, rfl⟩ := object_of_passPayload (.inl rfl) hpass
    obtain ⟨-, props, hprops, -, -, clamped, hclamped, rfl⟩ := passElement_eq_some_iff.1 hpass
    exact mem_fieldRuns_set hprops (mem_fieldRuns_of_clampFields hclamped) hpassed
  · by_cases hupdate : name = .updateElement
    · subst hupdate
      obtain ⟨inner, rfl⟩ := object_of_passPayload (.inr (.inl rfl)) hpass
      obtain ⟨-, props, hprops, clamped, hclamped, rfl⟩ := passUpdate_eq_some_iff.1 hpass
      exact mem_fieldRuns_set hprops (mem_fieldRuns_of_clampFields hclamped) hpassed
    · by_cases hframe : name = .addKeyframe
      · subst hframe
        obtain ⟨inner, rfl⟩ := object_of_passPayload (.inr (.inr rfl)) hpass
        obtain ⟨-, _, -, -, _, -, -, value, hvalue, -, clamped, hclamped, rfl⟩ :=
          passKeyframe_eq_some_iff.1 hpass
        exact mem_fieldRuns_set hvalue (mem_runs_of_clampProperty hclamped) hpassed
      · rwa [passPayload_eq_self hadd hupdate hframe hpass] at hpassed

end

end Storyboard.Gate
