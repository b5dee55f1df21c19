import Storyboard.Proofs.Mention
import Storyboard.Proofs.Prompt.Search
/-!
# The gate and the numbers of placeholders

Whether an action passes, and how, does not depend on the numbers of its placeholders: moving them
on before or after the gate comes to the same.
-/

namespace Storyboard.Gate

open Placeholder (raised raisedFields raisedText textRuns)

variable {α : Type}

theorem isBlank_brace : Text.isBlank '\x7b' = false := by decide

theorem isNamed_text_iff {s : String} :
    isNamed (some (.text s : Value α)) = true ↔ ∃ c ∈ s.toList, Text.isBlank c = false := by
  rw [isNamed, Bool.not_eq_true', ← Bool.not_eq_true, List.isEmpty_iff, Text.trimBy_eq_nil_iff]
  simp

theorem exists_text_of_isNamed {v? : Option (Value α)} (h : isNamed v? = true) :
    ∃ s, v? = some (.text s) := by
  unfold isNamed at h
  split at h
  · exact ⟨_, rfl⟩
  · simp at h

theorem isNamed_raised (k : Nat) (v? : Option (Value α)) :
    isNamed (v?.map (raised k)) = isNamed v? := by
  rcases v? with _ | v
  · rfl
  · cases v with
    | text s =>
        by_cases hruns : textRuns s = []
        · rw [Option.map_some, raised, Placeholder.raisedText_of_textRuns_eq_nil hruns]
        · -- Both texts hold a brace, which is no blank.
          have hruns' : textRuns (raisedText k s) ≠ [] := by
            rw [Placeholder.textRuns_raisedText]
            simpa using hruns
          have hbefore : isNamed (some (.text s : Value α)) = true := isNamed_text_iff.2
            ⟨_, Placeholder.mem_brace_of_textRuns_ne_nil hruns, isBlank_brace⟩
          have hafter : isNamed (some (.text (raisedText k s) : Value α)) = true :=
            isNamed_text_iff.2
              ⟨_, Placeholder.mem_brace_of_textRuns_ne_nil hruns', isBlank_brace⟩
          rw [Option.map_some, raised, hbefore, hafter]
    | _ => rfl

theorem isOptionalText_raised (k : Nat) (v? : Option (Value α)) :
    isOptionalText (v?.map (raised k)) = isOptionalText v? := by
  rcases v? with _ | v
  · rfl
  · cases v <;> rfl

theorem isOneOf_raised {names : List String} (hnames : ∀ s ∈ names, '\x7b' ∉ s.toList) (k : Nat)
    (v? : Option (Value α)) : isOneOf names (v?.map (raised k)) = isOneOf names v? := by
  rcases v? with _ | v
  · rfl
  · cases v with
    | text s =>
        have hmem : raisedText k s ∈ names ↔ s ∈ names := by
          constructor
          · intro h
            rwa [← (Placeholder.raisedText_eq_iff (hnames _ h)).1 rfl] at h
          · intro h
            rwa [(Placeholder.raisedText_eq_iff (k := k) (hnames s h)).2 rfl]
        simp [raised, isOneOf, hmem]
    | _ => rfl

theorem isOneOf_eq_true_iff {names : List String} {v? : Option (Value α)} :
    isOneOf names v? = .ok true ↔ ∃ s ∈ names, v? = some (.text s) := by
  unfold isOneOf
  rcases v? with _ | v
  · simp
  · cases v <;> simp [Value.isContainer, eq_comm]

theorem set_raisedFields (k : Nat) (fields : Fields α) (name : String) (v : Value α) :
    Fields.set (raisedFields k fields) name (raised k v) =
      raisedFields k (Fields.set fields name v) := by
  induction fields with
  | nil => rfl
  | cons head rest ih =>
      obtain ⟨key, old⟩ := head
      by_cases hkey : key = name <;> simp [Fields.set, raisedFields, hkey, ih]

variable [Scalar α]

theorem finite?_raised (k : Nat) (v : Value α) : (raised k v).finite? = v.finite? := by
  cases v <;> rfl

theorem clampProperty_raised (k : Nat) (name : String) (v : Value α) :
    clampProperty name (raised k v) = (clampProperty name v).map (raised k) := by
  unfold clampProperty
  rw [finite?_raised]
  cases v.finite? with
  | error f => rfl
  | ok x? =>
      rcases x? with _ | x
      · rfl
      · cases bounds? (α := α) name with
        | none => rfl
        | some b => cases hb : b.beyond? x <;> simp [hb, raised]

theorem clampFields_raised (k : Nat) (fields : Fields α) :
    clampFields (raisedFields k fields) = (clampFields fields).map (raisedFields k) := by
  induction fields with
  | nil => rfl
  | cons head rest ih =>
      obtain ⟨name, v⟩ := head
      simp only [clampFields, raisedFields, clampProperty_raised, ih]
      cases clampProperty name v with
      | error f => rfl
      | ok w => cases clampFields rest <;> rfl

theorem passElement_raised (k : Nat) (payload : Fields α) :
    passElement (raisedFields k payload) =
      (passElement payload).map (Option.map (raised k)) := by
  have hkinds : ∀ s ∈ ElementKind.inventory.map ElementKind.name, '\x7b' ∉ s.toList := by decide
  unfold passElement
  simp only [Placeholder.get?_raisedFields, isOneOf_raised hkinds, isOptionalText_raised]
  cases isOneOf (ElementKind.inventory.map ElementKind.name) (Fields.get? payload "type") with
  | error f => rfl
  | ok known =>
      cases known with
      | false => rfl
      | true =>
          cases hprops : Fields.get? payload "props" with
          | none => rfl
          | some props =>
              cases props with
              | object props =>
                  simp only [Option.map_some, raised, Placeholder.get?_raisedFields,
                    isNamed_raised, clampFields_raised]
                  cases isNamed (Fields.get? props "id") with
                  | false => rfl
                  | true =>
                      cases isOptionalText (Fields.get? payload "targetParentId") with
                      | false => rfl
                      | true =>
                          cases clampFields props with
                          | error f => rfl
                          | ok props =>
                              have hset := set_raisedFields k payload "props" (.object props)
                              simp only [raised] at hset
                              simp [hset, raised]
              | _ => rfl

theorem passUpdate_raised (k : Nat) (payload : Fields α) :
    passUpdate (raisedFields k payload) =
      (passUpdate payload).map (Option.map (raised k)) := by
  unfold passUpdate
  simp only [Placeholder.get?_raisedFields, isNamed_raised]
  cases isNamed (Fields.get? payload "id") with
  | false => rfl
  | true =>
      cases hprops : Fields.get? payload "props" with
      | none => rfl
      | some props =>
          cases props with
          | object props =>
              simp only [Option.map_some, raised, clampFields_raised]
              cases clampFields props with
              | error f => rfl
              | ok props =>
                  have hset := set_raisedFields k payload "props" (.object props)
                  simp only [raised] at hset
                  simp [hset, raised]
          | _ => rfl

theorem passKeyframe_raised (k : Nat) (payload : Fields α) :
    passKeyframe (raisedFields k payload) =
      (passKeyframe payload).map (Option.map (raised k)) := by
  have hplain : ∀ s ∈ animatable, '\x7b' ∉ s.toList := by decide
  unfold passKeyframe
  simp only [Placeholder.get?_raisedFields, isNamed_raised, isOneOf_raised hplain,
    isOptionalText_raised]
  cases isNamed (Fields.get? payload "elementId") with
  | false => rfl
  | true =>
      cases hone : isOneOf animatable (Fields.get? payload "property") with
      | error f => rfl
      | ok known =>
          cases known with
          | false => rfl
          | true =>
              obtain ⟨s, hs, hproperty⟩ := isOneOf_eq_true_iff.1 hone
              have hsame : raisedText k s = s := (Placeholder.raisedText_eq_iff (hplain s hs)).2 rfl
              have htime : ∀ v? : Option (Value α),
                  ((v?.map (raised k)).getD .null).finite? = (v?.getD .null).finite? := by
                intro v?
                cases v? with
                | none => rfl
                | some v => exact finite?_raised k v
              simp only [hproperty, Option.map_some, raised, hsame, htime]
              rcases ((Fields.get? payload "time").getD .null).finite? with f | (_ | time)
              · rfl
              · rfl
              · by_cases hearly : time < 0.0
                · simp [hearly]
                · cases hvalue : Fields.get? payload "value" with
                  | none => simp
                  | some value =>
                      cases isOptionalText (Fields.get? payload "easing") with
                      | false => simp
                      | true =>
                          simp only [Option.map_some, clampProperty_raised]
                          cases hclamp : clampProperty s value with
                          | error f => simp [hearly, Value.text?, hclamp]
                          | ok w => simp [hearly, Value.text?, hclamp, set_raisedFields, raised]

theorem passNumber_raised (k : Nat) (accepts : α → Bool) (payload : Value α) :
    passNumber accepts (raised k payload) =
      (passNumber accepts payload).map (Option.map (raised k)) := by
  unfold passNumber
  rw [finite?_raised]
  cases payload.finite? with
  | error f => rfl
  | ok x? =>
      simp only [map_ok]
      cases x?.filter accepts <;> rfl

omit [Scalar α] in
theorem passReference_raised (k : Nat) (fields : Fields α) :
    passReference (raisedFields k fields) = (passReference fields).map (raised k) := by
  unfold passReference
  rw [Placeholder.get?_raisedFields, isNamed_raised]
  split <;> rfl

omit [Scalar α] in
theorem passId_raised (k : Nat) (payload : Value α) :
    passId (raised k payload) = (passId payload).map (raised k) := by
  unfold passId
  rw [← Option.map_some, isNamed_raised]
  split <;> rfl

theorem passPayload_raised (k : Nat) (name : ActionName) (payload : Value α) :
    passPayload name (raised k payload) =
      (passPayload name payload).map (Option.map (raised k)) := by
  cases name with
  | setDuration | setSpeed => exact passNumber_raised k positive payload
  | setTime => exact passNumber_raised k nonnegative payload
  | toFront | toBack | forward | backward => exact congrArg Except.ok (passId_raised k payload)
  | addElement =>
      cases payload with
      | object fields => exact passElement_raised k fields
      | _ => rfl
  | updateElement =>
      cases payload with
      | object fields => exact passUpdate_raised k fields
      | _ => rfl
  | addKeyframe =>
      cases payload with
      | object fields => exact passKeyframe_raised k fields
      | _ => rfl
  | group | reparent =>
      cases payload with
      | object fields => exact congrArg Except.ok (passReference_raised k fields)
      | _ => rfl
  | setArtboard | setPlaying => cases payload <;> rfl

/-- The gate treats an action alike whatever the numbers of its placeholders. -/
theorem pass_raised (k : Nat) (action : Value α) :
    pass (raised k action) = (pass action).map (Option.map (raised k)) := by
  cases action with
  | object fields =>
      have hname := ofValue?_raised k (.object fields)
      simp only [raised] at hname
      simp only [raised, pass, hname, Placeholder.get?_raisedFields]
      cases ActionName.ofValue? (.object fields) with
      | none => rfl
      | some name =>
          cases Fields.get? fields "payload" with
          | none => rfl
          | some payload =>
              simp only [Option.map_some, passPayload_raised]
              rcases passPayload name payload with f | (_ | passed)
              · rfl
              · rfl
              · simp [set_raisedFields, raised]
  | _ => rfl

end Storyboard.Gate
