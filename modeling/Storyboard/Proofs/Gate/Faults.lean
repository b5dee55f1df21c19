import Storyboard.Proofs.Gate.Steady
/-!
# Where the gate faults

The gate drops what it cannot apply, with two exceptions: a list or an object where it looks up a
name, and a whole number beyond all scalars where it compares one.  Each is reached only by what
passed the checks before it.
-/

namespace Storyboard.Gate

open Quality (fieldOf)

variable {α : Type} [Scalar α]

/-- A whole number with no finite scalar near it. -/
def TooLarge (α : Type) [Scalar α] (n : Int) : Prop :=
  Scalar.isFinite (Scalar.ofInt n : α) = false

/-- Some property is a whole number that is too large. -/
def HasTooLarge (props : Fields α) : Prop := ∃ name n, (name, .int n) ∈ props ∧ TooLarge α n

/-- The payloads that the gate faults on, by the name of the action. -/
inductive Hazard : ActionName → Value α → Fault → Prop
  /-- The kind of a new element is looked up first. -/
  | kind {payload : Fields α} {v : Value α} (hkind : Fields.get? payload "type" = some v)
      (hv : v.isContainer = true) : Hazard .addElement (.object payload) (.notHashable v.kind)
  | newProperty {payload props : Fields α}
      (hkind : isOneOf (ElementKind.inventory.map ElementKind.name)
        (Fields.get? payload "type") = .ok true)
      (hprops : Fields.get? payload "props" = some (.object props))
      (hid : isNamed (Fields.get? props "id") = true)
      (hparent : isOptionalText (Fields.get? payload "targetParentId") = true)
      (hlarge : HasTooLarge props) : Hazard .addElement (.object payload) .integerTooLarge
  | property {payload props : Fields α} (hid : isNamed (Fields.get? payload "id") = true)
      (hprops : Fields.get? payload "props" = some (.object props))
      (hlarge : HasTooLarge props) : Hazard .updateElement (.object payload) .integerTooLarge
  /-- The property of a keyframe is looked up once its element is known to have a name. -/
  | track {payload : Fields α} {v : Value α}
      (hid : isNamed (Fields.get? payload "elementId") = true)
      (hproperty : Fields.get? payload "property" = some v) (hv : v.isContainer = true) :
      Hazard .addKeyframe (.object payload) (.notHashable v.kind)
  | time {payload : Fields α} {n : Int}
      (hid : isNamed (Fields.get? payload "elementId") = true)
      (hproperty : isOneOf animatable (Fields.get? payload "property") = .ok true)
      (htime : Fields.get? payload "time" = some (.int n)) (hlarge : TooLarge α n) :
      Hazard .addKeyframe (.object payload) .integerTooLarge
  | value {payload : Fields α} {x : α} {n : Int}
      (hid : isNamed (Fields.get? payload "elementId") = true)
      (hproperty : isOneOf animatable (Fields.get? payload "property") = .ok true)
      (htime : (fieldOf payload "time").finite? = .ok (some x)) (hlate : ¬ x < 0.0)
      (hvalue : Fields.get? payload "value" = some (.int n))
      (heasing : isOptionalText (Fields.get? payload "easing") = true)
      (hlarge : TooLarge α n) : Hazard .addKeyframe (.object payload) .integerTooLarge
  | number {name : ActionName} {n : Int}
      (hname : name = .setDuration ∨ name = .setSpeed ∨ name = .setTime)
      (hlarge : TooLarge α n) : Hazard name (.int n) .integerTooLarge

theorem finite?_eq_error_iff {v : Value α} {f : Fault} :
    v.finite? = .error f ↔ f = .integerTooLarge ∧ ∃ n, v = .int n ∧ TooLarge α n := by
  cases v with
  | int n =>
      simp only [Value.finite?, Value.scalarOfInt, TooLarge, map_eq_error_iff]
      by_cases hfinite : Scalar.isFinite (Scalar.ofInt n : α) = true
      · simp [hfinite]
      · simp [hfinite, @eq_comm _ f]
  | _ => simp [Value.finite?]

theorem clampProperty_eq_error_iff {name : String} {v : Value α} {f : Fault} :
    clampProperty name v = .error f ↔ f = .integerTooLarge ∧ ∃ n, v = .int n ∧ TooLarge α n := by
  rw [clampProperty, map_eq_error_iff, finite?_eq_error_iff]

theorem clampFields_eq_error_iff {props : Fields α} {f : Fault} :
    clampFields props = .error f ↔ f = .integerTooLarge ∧ HasTooLarge props := by
  induction props with
  | nil => simp [clampFields, HasTooLarge]
  | cons head rest ih =>
      obtain ⟨name, v⟩ := head
      simp only [clampFields, bind_eq_error_iff, clampProperty_eq_error_iff, ih, pure_eq_ok,
        reduceCtorEq, and_false, exists_false, or_false]
      constructor
      · rintro (⟨rfl, n, rfl, hn⟩ | ⟨w, -, rfl, other, n, hmem, hn⟩)
        · exact ⟨rfl, name, n, by simp, hn⟩
        · exact ⟨rfl, other, n, List.mem_cons_of_mem _ hmem, hn⟩
      · rintro ⟨rfl, other, n, hmem, hn⟩
        cases hclamp : clampProperty name v with
        | error g => exact .inl ⟨rfl, (clampProperty_eq_error_iff.1 hclamp).2⟩
        | ok w =>
            refine .inr ⟨w, rfl, rfl, other, n, ?_, hn⟩
            rcases List.mem_cons.1 hmem with heq | hmem
            · simp only [Prod.mk.injEq] at heq
              obtain ⟨rfl, rfl⟩ := heq
              rw [clampProperty_eq_error_iff.2 ⟨rfl, n, rfl, hn⟩] at hclamp
              simp at hclamp
            · exact hmem

omit [Scalar α] in
theorem isOneOf_eq_error_iff {names : List String} {v? : Option (Value α)} {f : Fault} :
    isOneOf names v? = .error f ↔
      ∃ v, v? = some v ∧ v.isContainer = true ∧ f = .notHashable v.kind := by
  rcases v? with _ | v
  · simp [isOneOf]
  · cases v with
    | list items => simp [isOneOf, Value.isContainer, @eq_comm _ f]
    | object fields => simp [isOneOf, Value.isContainer, @eq_comm _ f]
    | _ => simp [isOneOf, Value.isContainer]

theorem passElement_eq_error_iff {payload : Fields α} {f : Fault} :
    passElement payload = .error f ↔ Hazard .addElement (.object payload) f := by
  constructor
  · intro h
    unfold passElement at h
    cases hkind : isOneOf (ElementKind.inventory.map ElementKind.name)
        (Fields.get? payload "type") with
    | error g =>
        obtain ⟨v, hv, hcontainer, rfl⟩ := isOneOf_eq_error_iff.1 hkind
        simp only [hkind, error_bind, Except.error.injEq] at h
        subst h
        exact .kind hv hcontainer
    | ok known =>
        cases known with
        | false => simp [hkind] at h
        | true =>
            rcases hprops : Fields.get? payload "props" with _ | props
            · simp [hkind, hprops] at h
            · cases props with
              | object props =>
                  by_cases hid : isNamed (Fields.get? props "id") = true
                  · by_cases hparent : isOptionalText (Fields.get? payload "targetParentId") = true
                    · have hclamp : clampFields props = .error f := by
                        simpa [hkind, hprops, hid, hparent, bind_eq_error_iff] using h
                      obtain ⟨rfl, hlarge⟩ := clampFields_eq_error_iff.1 hclamp
                      exact .newProperty hkind hprops hid hparent hlarge
                    · simp [hkind, hprops, hid, hparent] at h
                  · simp [hkind, hprops, hid] at h
              | _ => simp [hkind, hprops] at h
  · intro h
    unfold passElement
    cases h with
    | kind hkind hv =>
        rw [isOneOf_eq_error_iff.2 ⟨_, hkind, hv, rfl⟩]
        rfl
    | newProperty hkind hprops hid hparent hlarge =>
        simp [hkind, hprops, hid, hparent, clampFields_eq_error_iff.2 ⟨rfl, hlarge⟩]

theorem passUpdate_eq_error_iff {payload : Fields α} {f : Fault} :
    passUpdate payload = .error f ↔ Hazard .updateElement (.object payload) f := by
  constructor
  · intro h
    unfold passUpdate at h
    by_cases hid : isNamed (Fields.get? payload "id") = true
    · rcases hprops : Fields.get? payload "props" with _ | props
      · simp [hid, hprops] at h
      · cases props with
        | object props =>
            have hclamp : clampFields props = .error f := by
              simpa [hid, hprops, bind_eq_error_iff] using h
            obtain ⟨rfl, hlarge⟩ := clampFields_eq_error_iff.1 hclamp
            exact .property hid hprops hlarge
        | _ => simp [hid, hprops] at h
    · simp [hid] at h
  · intro h
    unfold passUpdate
    cases h with
    | property hid hprops hlarge =>
        simp [hid, hprops, clampFields_eq_error_iff.2 ⟨rfl, hlarge⟩]

theorem passKeyframe_eq_error_iff {payload : Fields α} {f : Fault} :
    passKeyframe payload = .error f ↔ Hazard .addKeyframe (.object payload) f := by
  constructor
  · intro h
    unfold passKeyframe at h
    by_cases hid : isNamed (Fields.get? payload "elementId") = true
    · rcases hproperty : isOneOf animatable (Fields.get? payload "property") with g | (_ | _)
      · obtain ⟨v, hv, hcontainer, rfl⟩ := isOneOf_eq_error_iff.1 hproperty
        have hf : .notHashable v.kind = f := by simpa [hid, hproperty] using h
        subst hf
        exact .track hid hv hcontainer
      · simp [hid, hproperty] at h
      · rcases htime : ((Fields.get? payload "time").getD .null).finite? with g | (_ | time)
        · obtain ⟨rfl, n, hn, hlarge⟩ := finite?_eq_error_iff.1 htime
          have hf : .integerTooLarge = f := by simpa [hid, hproperty, htime] using h
          subst hf
          refine .time hid hproperty ?_ hlarge
          cases hfield : Fields.get? payload "time" with
          | none => simp [hfield] at hn
          | some v => simpa [hfield] using hn
        · simp [hid, hproperty, htime] at h
        · by_cases hearly : time < 0.0
          · simp [hid, hproperty, htime, hearly] at h
          · cases hvalue : Fields.get? payload "value" with
            | none => simp [hid, hproperty, htime, hvalue] at h
            | some value =>
                by_cases heasing : isOptionalText (Fields.get? payload "easing") = true
                · have hclamp : ∃ name, clampProperty name value = .error f := by
                    exact ⟨_, by
                      simpa [hid, hproperty, htime, hearly, hvalue, heasing, bind_eq_error_iff]
                        using h⟩
                  obtain ⟨name, hclamp⟩ := hclamp
                  obtain ⟨rfl, n, rfl, hlarge⟩ := clampProperty_eq_error_iff.1 hclamp
                  exact .value hid hproperty htime hearly hvalue heasing hlarge
                · simp [hid, hproperty, htime, hvalue, heasing] at h
    · simp [hid] at h
  · intro h
    unfold passKeyframe
    cases h with
    | track hid hproperty hv =>
        simp [hid, isOneOf_eq_error_iff.2 ⟨_, hproperty, hv, rfl⟩]
    | time hid hproperty htime hlarge =>
        simp [hid, hproperty, htime, finite?_eq_error_iff.2 ⟨rfl, _, rfl, hlarge⟩]
    | value hid hproperty htime hlate hvalue heasing hlarge =>
        unfold fieldOf at htime
        simp [hid, hproperty, htime, hlate, hvalue, heasing,
          clampProperty_eq_error_iff.2 ⟨rfl, _, rfl, hlarge⟩]

theorem passNumber_eq_error_iff {accepts : α → Bool} {payload : Value α} {f : Fault} :
    passNumber accepts payload = .error f ↔
      f = .integerTooLarge ∧ ∃ n, payload = .int n ∧ TooLarge α n := by
  rw [passNumber, map_eq_error_iff, finite?_eq_error_iff]

theorem passPayload_eq_error_iff {name : ActionName} {payload : Value α} {f : Fault} :
    passPayload name payload = .error f ↔ Hazard name payload f := by
  have hnumber : ∀ {accepts : α → Bool}, passNumber accepts payload = .error f →
      (name = .setDuration ∨ name = .setSpeed ∨ name = .setTime) → Hazard name payload f := by
    intro accepts h hname
    obtain ⟨rfl, n, rfl, hlarge⟩ := passNumber_eq_error_iff.1 h
    exact .number hname hlarge
  constructor
  · intro h
    cases name with
    | addElement =>
        cases payload with
        | object fields => exact passElement_eq_error_iff.1 h
        | _ => simp [passPayload] at h
    | updateElement =>
        cases payload with
        | object fields => exact passUpdate_eq_error_iff.1 h
        | _ => simp [passPayload] at h
    | addKeyframe =>
        cases payload with
        | object fields => exact passKeyframe_eq_error_iff.1 h
        | _ => simp [passPayload] at h
    | setDuration => exact hnumber h (.inl rfl)
    | setSpeed => exact hnumber h (.inr (.inl rfl))
    | setTime => exact hnumber h (.inr (.inr rfl))
    | _ => cases payload <;> simp [passPayload] at h
  · intro h
    cases h with
    | kind hkind hv => exact passElement_eq_error_iff.2 (.kind hkind hv)
    | newProperty hkind hprops hid hparent hlarge =>
        exact passElement_eq_error_iff.2 (.newProperty hkind hprops hid hparent hlarge)
    | property hid hprops hlarge => exact passUpdate_eq_error_iff.2 (.property hid hprops hlarge)
    | track hid hproperty hv => exact passKeyframe_eq_error_iff.2 (.track hid hproperty hv)
    | time hid hproperty htime hlarge =>
        exact passKeyframe_eq_error_iff.2 (.time hid hproperty htime hlarge)
    | value hid hproperty htime hlate hvalue heasing hlarge =>
        exact passKeyframe_eq_error_iff.2
          (.value hid hproperty htime hlate hvalue heasing hlarge)
    | number hname hlarge =>
        rcases hname with rfl | rfl | rfl <;>
          exact passNumber_eq_error_iff.2 ⟨rfl, _, rfl, hlarge⟩

/-- The gate faults on an action. -/
def Faulty (a : Value α) (f : Fault) : Prop :=
  ∃ name payload, ActionName.ofValue? a = some name ∧ a.field? "payload" = some payload ∧
    Hazard name payload f

theorem pass_eq_error_iff {a : Value α} {f : Fault} : pass a = .error f ↔ Faulty a f := by
  unfold Faulty
  cases a with
  | object fields =>
      unfold pass
      cases ActionName.ofValue? (.object fields) with
      | none => simp
      | some name =>
          cases hpayload : Fields.get? fields "payload" with
          | none => simp [Value.field?, hpayload]
          | some payload =>
              simp [Value.field?, hpayload, map_eq_error_iff, passPayload_eq_error_iff]
  | _ => simp [pass, Value.field?]

/-! ## Sequences -/

/-- A sequence is stopped by its first action that the gate faults on. -/
theorem passFrom_eq_error_iff {index : Nat} {as : List (Value α)} {f : Fault} :
    passFrom index as = .error f ↔
      ∃ before a after, as = before ++ a :: after ∧ (∀ b ∈ before, ∀ g, ¬ Faulty b g) ∧
        Faulty a f := by
  induction as generalizing index with
  | nil => simp [passFrom]
  | cons a as ih =>
      have hstep : passFrom index (a :: as) = .error f ↔
          pass a = .error f ∨ ∃ passed?, pass a = .ok passed? ∧
            passFrom (index + 1) as = .error f := by
        rw [passFrom, bind_eq_error_iff]
        refine or_congr_right (exists_congr fun passed? => and_congr_right fun _ => ?_)
        rw [bind_eq_error_iff]
        cases passed? <;> simp
      rw [hstep, ih, pass_eq_error_iff]
      constructor
      · rintro (h | ⟨passed?, hpass, before, b, after, rfl, hbefore, h⟩)
        · exact ⟨[], a, as, rfl, by simp, h⟩
        · refine ⟨a :: before, b, after, rfl, fun c hc g hg => ?_, h⟩
          rcases List.mem_cons.1 hc with rfl | hc
          · rw [pass_eq_error_iff.2 hg] at hpass
            simp at hpass
          · exact hbefore c hc g hg
      · rintro ⟨before, b, after, heq, hbefore, h⟩
        cases before with
        | nil =>
            simp only [List.nil_append, List.cons.injEq] at heq
            exact .inl (heq.1 ▸ h)
        | cons c before =>
            simp only [List.cons_append, List.cons.injEq] at heq
            obtain ⟨rfl, rfl⟩ := heq
            cases hpass : pass a with
            | error g => exact absurd (pass_eq_error_iff.1 hpass) (hbefore a (by simp) g)
            | ok passed? =>
                exact .inr ⟨passed?, rfl, before, b, after, rfl,
                  fun c hc => hbefore c (by simp [hc]), h⟩

/-- What is dropped is reported by its place, in order, and everything else is kept. -/
theorem passFrom_eq_ok {index : Nat} {as : List (Value α)} {r : Passage α}
    (h : passFrom index as = .ok r) :
    ∃ ds : List Nat, r.rejections = ds.map (fun i => .dropped (index + i)) ∧
      ds.Pairwise (· < ·) ∧ (∀ i, i ∈ ds ↔ ∃ a, as[i]? = some a ∧ pass a = .ok none) ∧
      r.actions.length + r.rejections.length = as.length := by
  induction as generalizing index r with
  | nil =>
      simp only [passFrom, Except.ok.injEq] at h
      subst h
      exact ⟨[], rfl, List.Pairwise.nil, by simp, rfl⟩
  | cons a as ih =>
      simp only [passFrom, bind_eq_ok_iff] at h
      obtain ⟨passed?, hpass, later, hlater, h⟩ := h
      obtain ⟨ds, hds, hrise, hmem, hlength⟩ := ih hlater
      have hshift : later.rejections =
          (ds.map (· + 1)).map (fun i => .dropped (index + i)) := by
        rw [hds, List.map_map]
        refine List.map_congr_left fun i _ => ?_
        simp only [Function.comp]
        congr 1
        omega
      have hrise' : (ds.map (· + 1)).Pairwise (· < ·) :=
        List.pairwise_map.2 (hrise.imp fun h => by omega)
      have hmem' : ∀ i, i + 1 ∈ ds.map (· + 1) ↔
          ∃ b, (a :: as)[i + 1]? = some b ∧ pass b = .ok none := by
        intro i
        simpa using hmem i
      cases passed? with
      | some passed =>
          simp only [pure_eq_ok, Except.ok.injEq] at h
          subst h
          refine ⟨ds.map (· + 1), hshift, hrise', fun i => ?_, ?_⟩
          · cases i with
            | zero => simp [hpass]
            | succ i => exact hmem' i
          · simp only [List.length_cons]
            omega
      | none =>
          simp only [pure_eq_ok, Except.ok.injEq] at h
          subst h
          refine ⟨0 :: ds.map (· + 1), ?_, ?_, fun i => ?_, ?_⟩
          · rw [List.map_cons, ← hshift]
            rfl
          · exact List.pairwise_cons.2 ⟨by simp, hrise'⟩
          · cases i with
            | zero => simp [hpass]
            | succ i => simpa using hmem i
          · simp only [List.length_cons]
            omega

/-- The gate answers for every value unless some action in a list is one that it faults on, and
then the first of these decides.  Otherwise it reports what it dropped by place, in order, and
keeps everything else; what is no list is reported as such. -/
theorem passValue_answers (v : Value α) :
    (∀ f, passValue v = .error f ↔
      ∃ before a after, v = .list (before ++ a :: after) ∧
        (∀ b ∈ before, ∀ g, ¬ Faulty b g) ∧ Faulty a f) ∧
    (∀ as r, v = .list as → passValue v = .ok r →
      ∃ ds : List Nat,
        r.rejections.map Rejection.tag = ds.map (fun i => "invalid_action_" ++ toString i) ∧
          ds.Pairwise (· < ·) ∧ (∀ i, i ∈ ds ↔ ∃ a, as[i]? = some a ∧ pass a = .ok none) ∧
          r.actions.length + r.rejections.length = as.length) ∧
    ((∀ as, v ≠ .list as) → passValue v = .ok ⟨[], [.notAList]⟩) := by
  refine ⟨fun f => ?_, ?_, fun h => ?_⟩
  · cases v with
    | list as =>
        rw [passValue, passAll, passFrom_eq_error_iff]
        simp only [Value.list.injEq]
    | _ => simp [passValue]
  · rintro as r rfl h
    obtain ⟨ds, hds, hrise, hmem, hlength⟩ := passFrom_eq_ok h
    refine ⟨ds, ?_, hrise, hmem, hlength⟩
    rw [hds, List.map_map]
    refine List.map_congr_left fun i _ => ?_
    simp [Rejection.tag]
  · cases v with
    | list as => exact absurd rfl (h as)
    | _ => rfl

/-- A new element whose kind is a list stops the gate. -/
theorem passValue_listKind :
    passValue (.list [Action.wire .addElement (.object [("type", .list []),
      ("props", .object [("id", .text "a")])])] : Value Float) = .error (.notHashable .list) := by
  rfl

end Storyboard.Gate
