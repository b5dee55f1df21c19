import Storyboard.Contract
import Storyboard.Proofs.Mention
/-!
# What schemas accept

A value is accepted when nothing about it is in breach.  One description for each rule, and from
them what a whole action or answer has to be: an action with a name and a payload is accepted when
the payload satisfies the rule for that name.
-/

namespace Storyboard.Schema

variable {α : Type} {v : Value α}

theorem accepts_here_iff {broken : Bool} {kind : BreachKind α} :
    here v broken kind = [] ↔ broken = false := by
  cases broken <;> simp [here]

variable [Scalar α]

theorem accepts_iff {s : Schema α} : s.accepts v = true ↔ s.breaches v = [] :=
  List.isEmpty_iff

theorem accepts_all_iff {rules : List (Schema α)} :
    (all rules).accepts v = true ↔ ∀ s ∈ rules, s.accepts v = true := by
  rw [accepts_iff]
  show breachesOfAll rules v = [] ↔ _
  induction rules with
  | nil => exact iff_of_true rfl (List.forall_mem_nil _)
  | cons s rest ih =>
    show s.breaches v ++ breachesOfAll rest v = [] ↔ _
    rw [List.append_eq_nil_iff, ih, List.forall_mem_cons, accepts_iff]

theorem accepts_type_iff {types : List SchemaType} :
    (type types : Schema α).accepts v = true ↔ .ofKind v.kind ∈ types := by
  have h : (type types : Schema α).accepts v = true ↔ (!types.contains (.ofKind v.kind)) = false :=
    accepts_iff.trans accepts_here_iff
  rw [h, Bool.not_eq_false', List.contains_iff_mem]

theorem accepts_required_iff {names : List String} {fields : Fields α} :
    (required names).accepts (.object fields) = true ↔
      ∀ name ∈ names, (Fields.get? fields name).isSome = true := by
  rw [accepts_iff]
  show (names.filter fun name => (Fields.get? fields name).isNone).map _ = [] ↔ _
  simp [Option.isSome_iff_ne_none]

theorem accepts_properties_iff {fields : List (String × Schema α)} :
    (properties fields).accepts v = true ↔
      ∀ rule ∈ fields, ∀ field, v.field? rule.1 = some field → rule.2.accepts field = true := by
  rw [accepts_iff]
  show breachesOfFields fields v = [] ↔ _
  induction fields with
  | nil => exact iff_of_true rfl (List.forall_mem_nil _)
  | cons head rest ih =>
    obtain ⟨name, s⟩ := head
    have hhead : breachesOfFields [(name, s)] v = [] ↔
        ∀ field, v.field? name = some field → s.accepts field = true := by
      show _ ++ [] = [] ↔ _
      cases v.field? name with
      | none => simp
      | some field => simp [accepts_iff]
    have hsplit : breachesOfFields ((name, s) :: rest) v =
        breachesOfFields [(name, s)] v ++ breachesOfFields rest v := by
      show _ ++ breachesOfFields rest v = (_ ++ []) ++ breachesOfFields rest v
      rw [List.append_nil]
    rw [hsplit, List.append_eq_nil_iff, hhead, ih, List.forall_mem_cons]

omit [Scalar α] in
/-- What holds of a field holds of the value that is known to be there. -/
theorem forall_field_iff {fields : Fields α} {name : String} {w : Value α}
    (h : Fields.get? fields name = some w) {P : Value α → Prop} :
    (∀ field, (Value.object fields).field? name = some field → P field) ↔ P w := by
  rw [Value.field?, h]
  simp

theorem accepts_items_iff {item : Schema α} {vs : List (Value α)} :
    (items item).accepts (.list vs) = true ↔ ∀ v ∈ vs, item.accepts v = true := by
  rw [accepts_iff]
  show (vs.zipIdx.flatMap fun pair =>
    (item.breaches pair.1).map (Breach.under (.index pair.2))) = [] ↔ _
  simp only [accepts_iff, List.flatMap_eq_nil_iff, List.map_eq_nil_iff]
  constructor
  · intro h v hv
    obtain ⟨k, hk⟩ := List.getElem?_of_mem hv
    exact h (v, k) (List.mk_mem_zipIdx_iff_getElem?.2 hk)
  · intro h pair hpair
    exact h pair.1 (List.fst_mem_of_mem_zipIdx hpair)

theorem accepts_oneOf_iff {names : List String} :
    (oneOf names : Schema α).accepts v = true ↔ ∃ s ∈ names, v = .text s := by
  have h : (oneOf names : Schema α).accepts v = true ↔
      (!((v.text?.map names.contains).getD false)) = false := accepts_iff.trans accepts_here_iff
  rw [h]
  cases v <;> simp [Value.text?]

theorem accepts_nonEmpty_iff : (nonEmpty : Schema α).accepts v = true ↔ v.text? ≠ some "" := by
  have h : (nonEmpty : Schema α).accepts v = true ↔ (v.text? == some "") = false :=
    accepts_iff.trans accepts_here_iff
  rw [h, beq_eq_false_iff_ne]

theorem accepts_minimum_iff {low : Value α} :
    (minimum low).accepts v = true ↔ v.less low = false :=
  accepts_iff.trans accepts_here_iff

theorem accepts_above_iff {low : Value α} :
    (above low).accepts v = true ↔ v.atMost low = false :=
  accepts_iff.trans accepts_here_iff

theorem accepts_maximum_iff {high : Value α} :
    (maximum high).accepts v = true ↔ high.less v = false :=
  accepts_iff.trans accepts_here_iff

theorem accepts_given_iff {condition consequence : Schema α} :
    (given condition consequence).accepts v = true ↔
      (condition.accepts v = true → consequence.accepts v = true) := by
  rw [accepts_iff]
  show (if condition.accepts v then consequence.breaches v else []) = [] ↔ _
  by_cases h : condition.accepts v = true
  · rw [if_pos h, ← accepts_iff]
    exact ⟨fun hc _ => hc, fun hc => hc h⟩
  · rw [if_neg h]
    exact iff_of_true rfl fun hc => absurd hc h

end Storyboard.Schema

namespace Storyboard.Contract

open Schema

variable {α : Type} [Scalar α]

/-- What the contract says about the payload of an action, by the name of the action. -/
def payloadRule : ActionName → Schema α
  | .addElement => element
  | .updateElement => update
  | .setArtboard => type [.object]
  | .addKeyframe => keyframe
  | .setDuration | .setSpeed => all [type [.number], above (.int 0)]
  | .setTime => numberFrom (.int 0)
  | .setPlaying => type [.boolean]
  | .group | .reparent => reference
  | .toFront | .toBack | .forward | .backward => type [.string]

omit [Scalar α] in
theorem type_of_ofValue? {v : Value α} {name : ActionName} (h : ActionName.ofValue? v = some name) :
    v.field? "type" = some (.text name.text) := by
  unfold ActionName.ofValue? ActionName.ofText? at h
  simp only [Option.bind_eq_some_iff] at h
  obtain ⟨s, ⟨field, hfield, hs⟩, hname⟩ := h
  have hsame := List.find?_some hname
  rw [decide_eq_true_eq] at hsame
  cases field with
  | text t =>
    obtain rfl : t = s := Option.some.inj hs
    rw [hfield, hsame]
  | _ => cases hs

theorem text_mem_map_iff {name : ActionName} {names : List ActionName} :
    name.text ∈ names.map ActionName.text ↔ name ∈ names := by
  refine ⟨fun h => ?_, List.mem_map_of_mem⟩
  obtain ⟨other, hother, htext⟩ := List.mem_map.1 h
  have hsame := ofText?_text other
  rw [htext, ofText?_text, Option.some.injEq] at hsame
  rwa [hsame]

theorem accepts_payloadOf_iff {fields : Fields α} {payload : Value α} {name : ActionName}
    {names : List ActionName} {rule : Schema α}
    (hname : ActionName.ofValue? (.object fields) = some name)
    (hpayload : Fields.get? fields "payload" = some payload) :
    (payloadOf names rule).accepts (.object fields) = true ↔
      (name ∈ names → rule.accepts payload = true) := by
  have hcondition : (properties [("type", oneOf (names.map ActionName.text))] :
      Schema α).accepts (.object fields) = true ↔ name ∈ names := by
    rw [accepts_properties_iff, List.forall_mem_singleton,
      forall_field_iff (type_of_ofValue? hname), accepts_oneOf_iff, ← text_mem_map_iff]
    exact ⟨fun ⟨s, hs, htext⟩ => Value.text.inj htext ▸ hs, fun hs => ⟨_, hs, rfl⟩⟩
  have hconsequence : (properties [("payload", rule)]).accepts (.object fields) = true ↔
      rule.accepts payload = true := by
    rw [accepts_properties_iff, List.forall_mem_singleton, forall_field_iff hpayload]
  rw [payloadOf, accepts_given_iff, hcondition, hconsequence]

/-- An action is accepted when its payload satisfies the rule for its name. -/
theorem accepts_action_iff {fields : Fields α} {payload : Value α} {name : ActionName}
    (hname : ActionName.ofValue? (.object fields) = some name)
    (hpayload : Fields.get? fields "payload" = some payload) :
    action.schema.accepts (.object fields) = true ↔
      (payloadRule name).accepts payload = true := by
  have htype := type_of_ofValue? hname
  have hlisted : name.text ∈ ActionName.inventory.map ActionName.text := by
    cases name <;> decide
  have hobject : (type [.object] : Schema α).accepts (.object fields) = true := by
    rw [accepts_type_iff]
    exact List.mem_singleton.2 rfl
  have hrequired : (required ["type", "payload"] : Schema α).accepts (.object fields) = true := by
    rw [accepts_required_iff]
    rw [Value.field?] at htype
    simp [htype, hpayload]
  have hnames : (properties [("type", oneOf (ActionName.inventory.map ActionName.text))] :
      Schema α).accepts (.object fields) = true := by
    rw [accepts_properties_iff, List.forall_mem_singleton, forall_field_iff htype]
    exact accepts_oneOf_iff.2 ⟨_, hlisted, rfl⟩
  simp only [action, accepts_all_iff, List.forall_mem_cons, hobject, hrequired, hnames,
    accepts_payloadOf_iff hname hpayload, true_and]
  cases name <;> simp [payloadRule, accepts_all_iff]

end Storyboard.Contract
