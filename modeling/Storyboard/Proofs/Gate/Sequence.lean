import Storyboard.Proofs.Gate.Range
/-!
# Sequences through the gate

Steady actions pass one after the other and none is dropped.  An action of the compiler that adds
an element is never dropped either: a sequence of such actions may lose changes and keyframes but
no element, and every reference that is left is still to a known one.
-/

namespace Storyboard.Gate

open Quality (fieldOf)

variable {α : Type}

/-! ## Actions of the compiler -/

theorem isNamed_id (n : Nat) : isNamed (some (.text (Placeholder.id n) : Value α)) = true := by
  have hbrace : '\x7b' ∈ (Placeholder.id n).toList := by
    rw [Placeholder.toList_id]
    exact List.mem_append_left _ (List.mem_append_left _ (by decide))
  exact isNamed_text_iff.2 ⟨_, hbrace, isBlank_brace⟩

theorem isOneOf_kindName (kind : ElementKind) :
    isOneOf (ElementKind.inventory.map ElementKind.name) (some (.text kind.name : Value α)) =
      .ok true := by
  cases kind <;> rfl

theorem isOptionalText_parent (parent : Parent) :
    isOptionalText (Fields.get? (parent.toFields : Fields α) "targetParentId") = true := by
  cases parent <;> rfl

variable [Scalar α]

theorem clampProperty_text (name s : String) :
    clampProperty name (.text s : Value α) = .ok (.text s) :=
  rfl

/-- A new element passes with its properties clamped. -/
theorem pass_add {kind : ElementKind} {id : String} {props : Fields α} {parent : Parent}
    (hid : isNamed (some (.text id : Value α)) = true) :
    pass (Action.add kind id props parent).toValue =
      (clampFields props).map fun clamped => some (Action.add kind id clamped parent).toValue := by
  have hpayload : passElement ([("type", .text kind.name),
      ("props", .object (("id", .text id) :: props))] ++ parent.toFields) =
      (clampFields props).map fun clamped =>
        some (.object ([("type", .text kind.name),
          ("props", .object (("id", .text id) :: clamped))] ++ parent.toFields)) := by
    unfold passElement
    simp only [List.cons_append, List.nil_append, Fields.get?_cons, if_true, isOneOf_kindName,
      String.reduceEq, if_false, ok_bind, Bool.not_true, Bool.false_eq_true, hid,
      isOptionalText_parent, clampFields, clampProperty_text]
    cases clampFields props with
    | error f => rfl
    | ok clamped => rfl
  have hname : ActionName.ofValue? (Action.add kind id props parent).toValue =
      some .addElement := ofValue?_wire _ _
  unfold pass
  simp only [Action.toValue, Action.wire] at hname ⊢
  simp only [hname, Fields.get?_cons, String.reduceEq, if_false, if_true, passPayload, hpayload]
  cases clampFields props with
  | error f => rfl
  | ok clamped => rfl

theorem pass_update {id : String} {props : Fields α}
    (hid : isNamed (some (.text id : Value α)) = true) :
    pass (Action.update id props).toValue =
      (clampFields props).map fun clamped => some (Action.update id clamped).toValue := by
  have hname : ActionName.ofValue? (Action.update id props).toValue = some .updateElement :=
    ofValue?_wire _ _
  unfold pass
  simp only [Action.toValue, Action.wire] at hname ⊢
  simp only [hname, Fields.get?_cons, String.reduceEq, if_false, if_true, passPayload,
    passUpdate, hid, Bool.not_true, Bool.false_eq_true]
  cases clampFields props with
  | error f => rfl
  | ok clamped => rfl

theorem pass_board (props : Fields α) :
    pass (Action.board props).toValue = .ok (some (Action.board props).toValue) := by
  rfl

/-- A keyframe that can be set passes with its value clamped. -/
theorem pass_keyframe {k : Keyframe α}
    (hid : isNamed (some (.text k.element : Value α)) = true) (hproperty : k.property ∈ animatable)
    (hfinite : Scalar.isFinite k.time = true) (htime : ¬ k.time < 0.0) :
    pass (Action.keyframe k).toValue =
      (clampProperty k.property k.value).map fun clamped =>
        some (Action.keyframe { k with value := clamped }).toValue := by
  have hname : ActionName.ofValue? (Action.keyframe k).toValue = some .addKeyframe :=
    ofValue?_wire _ _
  have hone : isOneOf animatable (some (.text k.property : Value α)) = .ok true :=
    isOneOf_eq_true_iff.2 ⟨_, hproperty, rfl⟩
  have hread : (Value.real k.time).finite? = .ok (some k.time) := by
    simp [Value.finite?, hfinite]
  have heasing : isOptionalText (Fields.get? (Action.keyframePayload k) "easing") = true := by
    unfold Action.keyframePayload
    cases k.easing <;> rfl
  have hpayload : passKeyframe (Action.keyframePayload k) =
      (clampProperty k.property k.value).map fun clamped =>
        some (.object (Action.keyframePayload { k with value := clamped })) := by
    unfold passKeyframe
    rw [heasing]
    simp only [Action.keyframePayload, List.cons_append, Fields.get?_cons, String.reduceEq,
      if_true, if_false, hid, hone, hread, htime, Bool.not_true, Bool.false_eq_true, ok_bind,
      Option.getD_some, Option.bind_some, Value.text?]
    cases clampProperty k.property k.value with
    | error f => rfl
    | ok clamped => rfl
  unfold pass
  simp only [Action.toValue, Action.wire] at hname ⊢
  simp only [hname, Fields.get?_cons, String.reduceEq, if_false, if_true, passPayload, hpayload]
  cases clampProperty k.property k.value with
  | error f => rfl
  | ok clamped => rfl

/-! ## Sequences -/

theorem passFrom_of_steady {index : Nat} {as : List (Value α)} (h : ∀ a ∈ as, Steady a) :
    passFrom index as = .ok ⟨as, []⟩ := by
  induction as generalizing index with
  | nil => rfl
  | cons a as ih =>
      have hhead : pass a = .ok (some a) := h a (by simp)
      simp [passFrom, hhead, ih fun b hb => h b (by simp [hb])]

/-- Nothing is lost of what the action adds when it is dropped. -/
def Spares (a : Value α) : Prop := pass a = .ok none → addedId? a = none

theorem spares_of_steady {a : Value α} (h : Steady a) : Spares a := by
  intro hnone
  rw [Steady, hnone] at h
  simp at h

theorem spares_toValue {a : Action α}
    (h : ∀ id, a.added? = some id → isNamed (some (.text id : Value α)) = true) :
    Spares a.toValue := by
  intro hnone
  cases a with
  | add kind id props parent =>
      rw [pass_add (h id rfl), map_eq_ok_iff] at hnone
      obtain ⟨_, -, hnone⟩ := hnone
      simp at hnone
  | update id props => rfl
  | board props => rfl
  | keyframe k => rfl

theorem passFrom_cons_eq_ok {index : Nat} {a : Value α} {as : List (Value α)} {r : Passage α}
    (h : passFrom index (a :: as) = .ok r) :
    ∃ passed? later, pass a = .ok passed? ∧ passFrom (index + 1) as = .ok later ∧
      r.actions = passed?.toList ++ later.actions := by
  simp only [passFrom, bind_eq_ok_iff] at h
  obtain ⟨passed?, hpass, later, hlater, h⟩ := h
  refine ⟨passed?, later, hpass, hlater, ?_⟩
  cases passed? with
  | none =>
      simp only [pure_eq_ok, Except.ok.injEq] at h
      simp [← h]
  | some passed =>
      simp only [pure_eq_ok, Except.ok.injEq] at h
      simp [← h]

theorem addedIds_of_passFrom {index : Nat} {as : List (Value α)} {r : Passage α}
    (h : passFrom index as = .ok r) (hspares : ∀ a ∈ as, Spares a) :
    addedIds r.actions = addedIds as := by
  induction as generalizing index r with
  | nil =>
      simp only [passFrom, Except.ok.injEq] at h
      simp [← h]
  | cons a as ih =>
      obtain ⟨passed?, later, hpass, hlater, hactions⟩ := passFrom_cons_eq_ok h
      have hrest := ih hlater fun b hb => hspares b (by simp [hb])
      have hhead : addedIds passed?.toList = (addedId? a).toList := by
        cases passed? with
        | none => simp [addedIds, hspares a (by simp) hpass]
        | some b =>
            cases hb : addedId? b <;> simp [addedIds, ← addedId?_of_pass hpass, hb]
      have hsplit : addedIds (a :: as) = (addedId? a).toList ++ addedIds as := by
        cases ha : addedId? a <;> simp [addedIds, ha]
      rw [hactions, addedIds_append, hhead, hrest, hsplit]

theorem closed_of_passFrom {index : Nat} {known : List String} {as : List (Value α)}
    {r : Passage α} (h : passFrom index as = .ok r) (hspares : ∀ a ∈ as, Spares a)
    (hclosed : Closed known as) : Closed known r.actions := by
  induction as generalizing index known r with
  | nil =>
      simp only [passFrom, Except.ok.injEq] at h
      simp [← h, Closed]
  | cons a as ih =>
      obtain ⟨passed?, later, hpass, hlater, hactions⟩ := passFrom_cons_eq_ok h
      have hrest := ih hlater (fun b hb => hspares b (by simp [hb])) hclosed.2
      rw [hactions]
      cases passed? with
      | none =>
          rw [hspares a (by simp) hpass] at hrest
          simpa using hrest
      | some b =>
          rw [← addedId?_of_pass hpass] at hrest
          refine ⟨fun v hv => hclosed.1 v ?_, hrest⟩
          rwa [references_of_pass hpass] at hv

/-- Every action that came through is what some action passed as. -/
theorem exists_pass_of_mem {index : Nat} {as : List (Value α)} {r : Passage α}
    (h : passFrom index as = .ok r) : ∀ b ∈ r.actions, ∃ a ∈ as, pass a = .ok (some b) := by
  induction as generalizing index r with
  | nil =>
      simp only [passFrom, Except.ok.injEq] at h
      simp [← h]
  | cons a as ih =>
      obtain ⟨passed?, later, hpass, hlater, hactions⟩ := passFrom_cons_eq_ok h
      intro b hb
      rw [hactions, List.mem_append, Option.mem_toList] at hb
      rcases hb with hb | hb
      · rw [hb] at hpass
        exact ⟨a, List.mem_cons_self, hpass⟩
      · obtain ⟨c, hc, hpass⟩ := ih hlater b hb
        exact ⟨c, List.mem_cons_of_mem a hc, hpass⟩

theorem mem_of_passFrom {index : Nat} {as : List (Value α)} {r : Passage α}
    (h : passFrom index as = .ok r) {a b : Value α} (ha : a ∈ as)
    (hpass : pass a = .ok (some b)) : b ∈ r.actions := by
  induction as generalizing index r with
  | nil => cases ha
  | cons c as ih =>
      obtain ⟨passed?, later, hc, hlater, hactions⟩ := passFrom_cons_eq_ok h
      rw [hactions, List.mem_append, Option.mem_toList]
      rcases List.mem_cons.1 ha with rfl | ha
      · exact .inl (Except.ok.inj (hc.symm.trans hpass))
      · exact .inr (ih hlater ha)

theorem steady_of_passFrom {index : Nat} {as : List (Value Float)} {r : Passage Float}
    (h : passFrom index as = .ok r) : ∀ b ∈ r.actions, Steady b := by
  intro b hb
  obtain ⟨a, -, hpass⟩ := exists_pass_of_mem h b hb
  exact steady_of_pass hpass

end Storyboard.Gate
