import Storyboard.Proofs.Composition.Closure
/-!
# Coherent sequences

What the checks on a whole sequence of actions come to: references are resolved, new ids are
placeholders with rising numbers, properties are in range and keyframes have a time.  A coherent
sequence fails none of them, and one that passed the gate is coherent when its references and ids
are in order.
-/

namespace Storyboard

open Quality

variable {α : Type}

theorem Membership.ofValue_texts (known : List String) :
    ofValue (.list (known.map .text) : Value α) = .ok ⟨known.map .text⟩ := by
  have hnone : (known.map .text : List (Value α)).find? Value.isContainer = none := by
    rw [List.find?_eq_none]
    intro v hv
    obtain ⟨s, -, rfl⟩ := List.mem_map.1 hv
    simp [Value.isContainer]
  simp [ofValue, Value.elements?, hnone]

theorem texts_of_closed {known : List String} {as : List (Value α)} (h : Closed known as) :
    ∀ a ∈ as, ∀ v ∈ references a, ∃ s, v = .text s := by
  induction as generalizing known with
  | nil => exact List.forall_mem_nil _
  | cons a as ih =>
      refine List.forall_mem_cons.2 ⟨fun v hv => ?_, ih h.2⟩
      obtain ⟨s, -, hs⟩ := h.1 v hv
      exact ⟨s, hs⟩

variable [Scalar α]

/-- The properties that an action sets are in their ranges. -/
def Ranged (a : Value α) : Prop :=
  match ActionName.ofValue? a with
  | some .addElement | some .updateElement =>
    allInRange (objectIn (payloadOf a) "props") = .ok true
  | some .addKeyframe =>
    isInRange ((Fields.get? (payloadOf a) "property").getD (.text "")).display
      (fieldOf (payloadOf a) "value") = .ok true
  | _ => True

/-- Whether the properties that an action sets are in their ranges. -/
def rangedIn (a : Value α) : Except Fault Bool :=
  match ActionName.ofValue? a with
  | some .addElement | some .updateElement => allInRange (objectIn (payloadOf a) "props")
  | some .addKeyframe =>
    isInRange ((Fields.get? (payloadOf a) "property").getD (.text "")).display
      (fieldOf (payloadOf a) "value")
  | _ => .ok true

theorem ranged_iff {a : Value α} : Ranged a ↔ rangedIn a = .ok true := by
  unfold Ranged rangedIn
  rcases ActionName.ofValue? a with _ | name
  · simp
  · cases name <;> simp

/-- A keyframe has a finite time that is not below zero. -/
def Timed (a : Value α) : Prop :=
  ActionName.ofValue? a = some .addKeyframe →
    ∃ t : α, (fieldOf (payloadOf a) "time").finite? = .ok (some t) ∧ ¬ t < 0.0

/-- A sequence in which every reference is to a known element or to one that was added before, new
ids are placeholders with rising numbers, and values and times can be applied. -/
structure Coherent (known : List String) (actions : List (Value α)) : Prop where
  closed : Closed known actions
  rising : ∃ ks : List Nat, addedIds actions = ks.map Placeholder.id ∧ ks.Pairwise (· < ·)
  ranged : ∀ a ∈ actions, Ranged a
  timed : ∀ a ∈ actions, Timed a

/-- A sequence fails no check, but for the one that there are actions. -/
def Faultless (known : List String) (actions : List (Value α)) : Prop :=
  ∃ a, assess (.list actions) (.list (known.map .text)) = .ok a ∧ ∀ c ∈ a.failures, c = .present

namespace Quality

/-! ## The survey -/

theorem holds_texts {m : Membership α} {known : List String} (h : m.items = known.map .text)
    (s : String) : m.holds (.text s) = .ok (decide (s ∈ known)) := by
  have hin : (Value.text s : Value α).isIn m.items = decide (s ∈ known) := by
    rw [h, Value.isIn, List.any_map, Bool.eq_iff_iff, decide_eq_true_iff]
    simp [Value.isUndefined, Value.same]
  simp [Membership.holds, Value.isContainer, hin]

/-- What a new element adds to a survey when its parent, if it has one, is named by a text. -/
theorem surveyElement_of_texts {s : Survey α} {payload : Fields α} {known : List String}
    {ranged : Bool} (hknown : s.known.items = known.map .text)
    (hparent : (fieldOf payload "targetParentId").kind ≠ .null →
      ∃ t, fieldOf payload "targetParentId" = .text t)
    (hranged : allInRange (objectIn payload "props") = .ok ranged) :
    ∃ resolved, surveyElement s payload =
        .ok (((Fields.get? (objectIn payload "props") "id").bind Value.text?).elim
          { s with unresolved := s.unresolved || !resolved,
                   outOfRange := s.outOfRange || !ranged } fun id =>
            { s with known := s.known.insert (.text id), added := id :: s.added,
                     unresolved := s.unresolved || !resolved,
                     outOfRange := s.outOfRange || !ranged }) ∧
      (resolved = true ↔ (fieldOf payload "targetParentId").kind ≠ .null →
        ∃ t ∈ known, fieldOf payload "targetParentId" = .text t) := by
  by_cases hkind : (fieldOf payload "targetParentId").kind = .null
  · refine ⟨true, ?_, by simp [hkind]⟩
    simp only [surveyElement, hkind, if_true, hranged, ok_bind]
    cases Fields.get? (objectIn payload "props") "id" with
    | none => simp
    | some v => cases v <;> simp [Value.text?]
  · obtain ⟨t, ht⟩ := hparent hkind
    have hkindOf : ¬ (Value.text t : Value α).kind = .null := ht ▸ hkind
    refine ⟨decide (t ∈ known), ?_, by simp [hkindOf, ht]⟩
    simp only [surveyElement, ht, hkindOf, if_false, holds_texts hknown, hranged, ok_bind]
    cases Fields.get? (objectIn payload "props") "id" with
    | none => simp
    | some v => cases v <;> simp [Value.text?]

/-- What one action adds to a survey when its references are texts. -/
theorem surveyAction_of_texts {s : Survey α} {a : Value α} {known : List String} {ranged : Bool}
    (hknown : s.known.items = known.map .text)
    (hreferences : ∀ v ∈ references a, ∃ t, v = .text t)
    (hranged : rangedIn a = .ok ranged) (htimed : Timed a) :
    ∃ s', surveyAction s a = .ok s' ∧ s'.added = (addedId? a).toList ++ s.added ∧
      s'.known.items = ((addedId? a).toList ++ known).map .text ∧
      (s'.unresolved = false ↔
        s.unresolved = false ∧ ∀ v ∈ references a, ∃ t ∈ known, v = .text t) ∧
      s'.outOfRange = (s.outOfRange || !ranged) ∧ s'.untimed = s.untimed := by
  cases hname : ActionName.ofValue? a with
  | none =>
      obtain rfl : true = ranged := by simpa [rangedIn, hname] using hranged
      exact ⟨s, by simp [surveyAction, hname], by simp [addedId?, references, hname, hknown]⟩
  | some name =>
      cases name with
      | addElement =>
          simp only [rangedIn, hname] at hranged
          obtain ⟨resolved, hsurvey, hresolved⟩ := surveyElement_of_texts hknown
            (fun hkind => hreferences _ (by simp [references, hname, hkind])) hranged
          have hall : resolved = true ↔ ∀ v ∈ references a, ∃ t ∈ known, v = .text t := by
            by_cases hkind : (fieldOf (payloadOf a) "targetParentId").kind = .null <;>
              simp [hresolved, references, hname, hkind]
          refine ⟨_, by simpa only [surveyAction, hname] using hsurvey, ?_⟩
          simp only [addedId?, hname, if_true]
          cases (Fields.get? (objectIn (payloadOf a) "props") "id").bind Value.text? with
          | none => simp [hknown, hall]
          | some id => simp [Membership.insert, hknown, hall]
      | updateElement =>
          simp only [rangedIn, hname] at hranged
          obtain ⟨t, ht⟩ := hreferences (fieldOf (payloadOf a) "id") (by simp [references, hname])
          simp only [surveyAction, hname, surveyUpdate, ht, holds_texts hknown, hranged, ok_bind]
          exact ⟨_, rfl, by simp [addedId?, references, hname, ht, hknown]⟩
      | addKeyframe =>
          simp only [rangedIn, hname] at hranged
          obtain ⟨t, ht⟩ := hreferences (fieldOf (payloadOf a) "elementId")
            (by simp [references, hname])
          obtain ⟨time, htime, hlate⟩ := htimed hname
          have haccepts : (some time).filter Gate.nonnegative = some time := by
            simp [Gate.nonnegative, hlate]
          simp only [surveyAction, hname, surveyKeyframe, ht, holds_texts hknown, hranged, htime,
            ok_bind, haccepts]
          exact ⟨_, rfl, by simp [addedId?, references, hname, ht, hknown]⟩
      | _ =>
          obtain rfl : true = ranged := by simpa [rangedIn, hname] using hranged
          exact ⟨s, by simp [surveyAction, hname], by simp [addedId?, references, hname, hknown]⟩

/-- A survey of a sequence whose references are texts finds all new ids, an unresolved reference
exactly when the sequence is not closed, and a value out of range exactly when one is. -/
theorem surveyAll_of_texts {s : Survey α} {known : List String} {as : List (Value α)}
    (hknown : s.known.items = known.map .text)
    (hreferences : ∀ a ∈ as, ∀ v ∈ references a, ∃ t, v = .text t)
    (hranged : ∀ a ∈ as, ∃ ranged, rangedIn a = .ok ranged) (htimed : ∀ a ∈ as, Timed a) :
    ∃ s', surveyAll s as = .ok s' ∧ s'.added = (addedIds as).reverse ++ s.added ∧
      (s'.unresolved = false ↔ s.unresolved = false ∧ Closed known as) ∧
      (s'.outOfRange = false ↔ s.outOfRange = false ∧ ∀ a ∈ as, Ranged a) ∧
      s'.untimed = s.untimed := by
  induction as generalizing s known with
  | nil => exact ⟨s, rfl, by simp [addedIds, Closed]⟩
  | cons a as ih =>
      rw [List.forall_mem_cons] at hreferences hranged htimed
      obtain ⟨⟨ranged, hhead⟩, hrest⟩ := hranged
      obtain ⟨s₁, hs₁, hadded, hitems, hunresolved, hrange, htime⟩ :=
        surveyAction_of_texts hknown hreferences.1 hhead htimed.1
      obtain ⟨s', hs', hadded', hunresolved', hrange', htime'⟩ :=
        ih hitems hreferences.2 hrest htimed.2
      refine ⟨s', by simp [surveyAll, hs₁, hs'], ?_, ?_, ?_, htime'.trans htime⟩
      · rw [hadded', hadded]
        cases ha : addedId? a <;> simp [addedIds, ha]
      · rw [hunresolved', hunresolved, Closed, and_assoc]
      · rw [hrange', hrange, List.forall_mem_cons, ranged_iff, hhead]
        simp [and_assoc]

/-! ## New ids -/

theorem placeholderDigits?_id (k : Nat) :
    placeholderDigits? (Placeholder.id k) = some (Decimal.digits k) := by
  have hat : Placeholder.at? (Placeholder.id k).toList = some (Decimal.digits k, []) :=
    Placeholder.at?_eq_some_iff.2
      ⟨Placeholder.areDigits_digits k, by rw [Placeholder.toList_id, List.append_nil]⟩
  simp [placeholderDigits?, hat]

theorem placeholderNumbers_map_id {ks : List Nat} (h : ∀ k ∈ ks, k < Placeholder.ceiling) :
    placeholderNumbers (ks.map Placeholder.id) = .ok ks := by
  induction ks with
  | nil => rfl
  | cons k ks ih =>
      obtain ⟨hk, hks⟩ := List.forall_mem_cons.1 h
      have hnumber : Placeholder.number (Decimal.digits k) = .ok k :=
        Placeholder.number_eq_ok_iff.2
          ⟨(Placeholder.length_digits_le_iff k).2 hk, (Placeholder.valueOf_digits k).symm⟩
      simp [placeholderNumbers, placeholderDigits?_id, hnumber, ih hks]

/-- Neighbours are compared only, but the order is passed on. -/
theorem isRising_iff {ks : List Nat} : isRising ks = true ↔ ks.Pairwise (· < ·) := by
  induction ks with
  | nil => simp [isRising]
  | cons k ks ih =>
      cases ks with
      | nil => simp [isRising]
      | cons j ks =>
          rw [isRising, Bool.and_eq_true, decide_eq_true_iff, ih, List.pairwise_cons (a := k),
            List.forall_mem_cons]
          constructor
          · rintro ⟨hkj, hks⟩
            exact ⟨⟨hkj, fun i hi => Nat.lt_trans hkj (List.rel_of_pairwise_cons hks hi)⟩, hks⟩
          · rintro ⟨⟨hkj, -⟩, hks⟩
            exact ⟨hkj, hks⟩

theorem isDistinct_iff {ids : List String} : isDistinct ids = true ↔ ids.Nodup := by
  induction ids with
  | nil => simp [isDistinct]
  | cons s ids ih => simp [isDistinct, ih]

theorem nodup_map_id {ks : List Nat} (h : ks.Pairwise (· < ·)) :
    (ks.map Placeholder.id).Nodup :=
  List.pairwise_map.2 (h.imp fun hlt heq => Nat.ne_of_lt hlt (Placeholder.id_injective heq))

/-! ## The assessment -/

/-- A coherent sequence whose ids can be read is faultless. -/
theorem faultless_of_coherent {known : List String} {actions : List (Value α)}
    (h : Coherent known actions)
    (hwritable : ∀ k, Placeholder.id k ∈ addedIds actions → k < Placeholder.ceiling) :
    Faultless known actions := by
  obtain ⟨ks, hks, hrise⟩ := h.rising
  have hnumbers : placeholderNumbers (ks.map Placeholder.id) = .ok ks := by
    refine placeholderNumbers_map_id fun k hk => hwritable k ?_
    rw [hks]
    exact List.mem_map_of_mem hk
  obtain ⟨s, hs, hadded, hunresolved, hinRange, htime⟩ :=
    surveyAll_of_texts (s := { known := ⟨known.map .text⟩ }) rfl
      (texts_of_closed h.closed) (fun a ha => ⟨true, ranged_iff.1 (h.ranged a ha)⟩) h.timed
  have hresolved : s.unresolved = false := hunresolved.2 ⟨rfl, h.closed⟩
  have hrange : s.outOfRange = false := hinRange.2 ⟨rfl, h.ranged⟩
  have hids : s.added.reverse = ks.map Placeholder.id := by
    rw [hadded, List.append_nil, List.reverse_reverse, hks]
  have hdistinct := isDistinct_iff.2 (nodup_map_id hrise)
  have hrising := isRising_iff.2 hrise
  simp only [Faultless, assess, Membership.ofValue_texts, ok_bind, Value.items?, Option.getD_some,
    hs, conclude, hids, hnumbers, hresolved, hrange, htime, hdistinct, hrising]
  refine ⟨_, rfl, ?_⟩
  cases actions <;> simp [Assessment.failures]

end Quality

/-! ## What passed the gate -/

/-- The properties in a payload are in range exactly when moving them there changes nothing. -/
theorem allInRange_objectIn_of_clampFields {payload props clamped : Fields Float}
    (hprops : Fields.get? payload "props" = some (.object props))
    (h : Gate.clampFields props = .ok clamped) :
    ∃ ranged, allInRange (objectIn payload "props") = .ok ranged ∧
      (ranged = true ↔ Fields.set payload "props" (.object clamped) = payload) := by
  obtain ⟨ranged, hranged, hsame⟩ := Gate.allInRange_of_clampFields h
  refine ⟨ranged, ?_, ?_⟩
  · simpa [objectIn, hprops, Value.fields?] using hranged
  · rw [hsame, Fields.set_eq_self_iff, hprops, Option.some.injEq, Value.object.injEq, eq_comm]

/-- What passes has its properties in range exactly when the gate changes nothing about it. -/
theorem rangedIn_of_pass {a b : Value Float} (h : Gate.pass a = .ok (some b)) :
    ∃ ranged, rangedIn a = .ok ranged ∧ (ranged = true ↔ b = a) := by
  obtain ⟨fields, rfl, name, hname, payload, hpayload, passed, hpass, rfl⟩ :=
    Gate.pass_eq_some_iff.1 h
  have hfield : (Value.object fields).field? "payload" = some payload := hpayload
  rw [Value.object.injEq, Fields.set_eq_self_iff, hpayload, Option.some.injEq, eq_comm, rangedIn,
    hname]
  by_cases hadd : name = .addElement
  · subst hadd
    obtain ⟨payload, rfl⟩ := Gate.object_of_passPayload (.inl rfl) hpass
    obtain ⟨-, props, hprops, -, -, clamped, hclamped, rfl⟩ := Gate.passElement_eq_some_iff.1 hpass
    simpa only [payloadOf_eq hfield, Value.fields?, Option.getD_some, Value.object.injEq]
      using allInRange_objectIn_of_clampFields hprops hclamped
  by_cases hupdate : name = .updateElement
  · subst hupdate
    obtain ⟨payload, rfl⟩ := Gate.object_of_passPayload (.inr (.inl rfl)) hpass
    obtain ⟨-, props, hprops, clamped, hclamped, rfl⟩ := Gate.passUpdate_eq_some_iff.1 hpass
    simpa only [payloadOf_eq hfield, Value.fields?, Option.getD_some, Value.object.injEq]
      using allInRange_objectIn_of_clampFields hprops hclamped
  by_cases hframe : name = .addKeyframe
  · subst hframe
    obtain ⟨payload, rfl⟩ := Gate.object_of_passPayload (.inr (.inr rfl)) hpass
    obtain ⟨-, property, -, hproperty, -, -, -, value, hvalue, -, clamped, hclamped, rfl⟩ :=
      Gate.passKeyframe_eq_some_iff.1 hpass
    obtain ⟨ranged, hranged, hsame⟩ := Gate.isInRange_of_clampProperty hclamped
    refine ⟨ranged, ?_, ?_⟩
    · simpa [payloadOf_eq hfield, hproperty, fieldOf, hvalue, Value.display] using hranged
    · rw [hsame, Value.object.injEq, Fields.set_eq_self_iff, hvalue, Option.some.injEq, eq_comm]
  · obtain rfl := Gate.passPayload_eq_self hadd hupdate hframe hpass
    exact ⟨true, by cases name <;> simp_all, by simp⟩

theorem timed_of_pass {a b : Value Float} (h : Gate.pass a = .ok (some b)) : Timed a := by
  intro hframe
  obtain ⟨name, payload, passed, hname, -, hpayload, -, hpass⟩ := Gate.payload_of_pass h
  rw [hframe, Option.some.injEq] at hname
  subst hname
  obtain ⟨fields, rfl⟩ := Gate.object_of_passPayload (.inr (.inr rfl)) hpass
  obtain ⟨-, _, -, -, t, htime, hlate, -⟩ := Gate.passKeyframe_eq_some_iff.1 hpass
  exact ⟨t, by rw [payloadOf_eq hpayload, htime], hlate⟩

theorem ranged_of_steady {a : Value Float} (h : Gate.Steady a) : Ranged a := by
  obtain ⟨ranged, hranged, hsame⟩ := rangedIn_of_pass h
  rw [ranged_iff, hranged, hsame.2 rfl]

/-- A closed sequence that passed the gate is coherent when its new ids rise. -/
theorem coherent_of_steady {known : List String} {actions : List (Value Float)}
    (hclosed : Closed known actions)
    (hrising : ∃ ks : List Nat, addedIds actions = ks.map Placeholder.id ∧
      ks.Pairwise (· < ·))
    (hsteady : ∀ a ∈ actions, Gate.Steady a) : Coherent known actions where
  closed := hclosed
  rising := hrising
  ranged := fun a ha => ranged_of_steady (hsteady a ha)
  timed := fun a ha => timed_of_pass (hsteady a ha)

end Storyboard
