import Storyboard.Compiler
import Storyboard.Proofs.Composition.Carriage
import Storyboard.Proofs.Contract.Admission
import Storyboard.Proofs.Draft.Sizing
/-!
# Orderly actions

What the generators make is orderly: the limited properties of a new element are scalars within
their limits, and an easing is never null.  Orderly actions stay so when they are composed and when
they pass the gate, and those that passed keep the contract, infinite and undefined scalars
included.
-/

namespace Storyboard.Contract

open Schema
open Gate (Clamped Steady exactly?)

/-! ## Limits of scalars -/

/-- A limit of the contract that is the finite scalar `e`. -/
structure IsLimit (limit : Value Float) (e : Float) : Prop where
  number : limit.kind ≠ .bool
  scalar : limit.scalar? = some e
  exact : ∃ p, limit.toRat? = some p ∧ Scalar.toRat? e = some p

theorem isLimit_zero : IsLimit (.int 0) 0.0 :=
  ⟨by decide, rfl, 0, rfl, Binary.toRat?_zero⟩

theorem isLimit_one : IsLimit (.int 1) 1.0 :=
  ⟨by decide, rfl, 1, rfl, Binary.toRat?_one⟩

theorem isLimit_hundredth : IsLimit (.real 0.01) 0.01 :=
  ⟨by decide, rfl, _, Binary.toRat?_hundredth, Binary.toRat?_hundredth⟩

theorem less_limit {limit : Value Float} {e : Float} (h : IsLimit limit e) (x : Float) :
    (Value.real x).less limit = decide (x < e) ∧ limit.less (.real x) = decide (e < x) := by
  obtain ⟨hkind, hscalar, p, hlimit, he⟩ := h
  have hreal : (Value.real x).toRat? = Scalar.toRat? x ∧ (Value.real x).scalar? = some x ∧
      (Value.real x).kind ≠ .bool := by
    refine ⟨rfl, rfl, ?_⟩
    show Kind.real ≠ Kind.bool
    decide
  unfold Value.less Value.compares
  rw [if_neg (not_or.2 ⟨hreal.2.2, hkind⟩), if_neg (not_or.2 ⟨hkind, hreal.2.2⟩), hlimit, hscalar,
    hreal.1, hreal.2.1]
  cases hx : Scalar.toRat? x with
  | none => exact ⟨rfl, rfl⟩
  | some q =>
    exact ⟨decide_eq_decide.2 (Binary.lt_iff_lt hx he).symm,
      decide_eq_decide.2 (Binary.lt_iff_lt he hx).symm⟩

theorem accepts_minimum_real {limit : Value Float} {e x : Float} (h : IsLimit limit e) :
    (minimum limit).accepts (.real x) = true ↔ ¬ x < e := by
  rw [accepts_minimum_iff, (less_limit h x).1, decide_eq_false_iff_not]

theorem accepts_maximum_real {limit : Value Float} {e x : Float} (h : IsLimit limit e) :
    (maximum limit).accepts (.real x) = true ↔ ¬ e < x := by
  rw [accepts_maximum_iff, (less_limit h x).2, decide_eq_false_iff_not]

/-- A scalar is accepted within limits that are those of its property. -/
theorem accepts_limits_of_within {name : String} {low : Value Float} {b : Bounds Float}
    {more : List (Schema Float)} {x : Float} (hb : Gate.bounds? name = some b)
    (hlow : IsLimit low b.low) (hmore : ∀ s ∈ more, s = maximum (.int 1) ∧ b.high = some 1.0)
    (h : Within name x) : (numberFrom low more).accepts (.real x) = true := by
  rw [Within, hb, Option.all_some, Option.isNone_iff_eq_none] at h
  have hbeyond : ∀ e, ¬ (x < b.low ∧ b.low = e ∨ ¬ x < b.low ∧ b.high = some e ∧ e < x) := by
    intro e he
    cases (Gate.beyond?_eq_some_iff.2 he).symm.trans h
  have hlate : ¬ x < b.low := fun hlt => hbeyond _ (.inl ⟨hlt, rfl⟩)
  refine accepts_numberFrom_iff.2 ⟨.inr rfl, (accepts_minimum_real hlow).2 hlate, fun s hs => ?_⟩
  obtain ⟨rfl, hhigh⟩ := hmore s hs
  exact (accepts_maximum_real isLimit_one).2 fun hlt => hbeyond 1.0 (.inr ⟨hlate, hhigh, hlt⟩)

/-- A scalar within the range of a limited property is accepted for it. -/
theorem accepts_measure_of_within {m : String × Schema Float} {x : Float} (hm : m ∈ measures)
    (h : Within m.1 x) : m.2.accepts (.real x) = true := by
  simp only [measures, List.mem_cons, List.not_mem_nil, or_false] at hm
  rcases hm with rfl | rfl | rfl | rfl
  · exact accepts_limits_of_within (b := ⟨0.0, some 1.0⟩) rfl isLimit_zero (by simp) h
  · exact accepts_limits_of_within (b := ⟨0.01, none⟩) rfl isLimit_hundredth (by simp) h
  · exact accepts_limits_of_within (b := ⟨0.0, none⟩) rfl isLimit_zero (by simp) h
  · exact accepts_limits_of_within (b := ⟨1.0, none⟩) rfl isLimit_one (by simp) h

/-! ## Orderly actions -/

/-- The limited properties of a new element are scalars within their limits, and an easing is not
null. -/
structure Orderly (a : Value Float) : Prop where
  measured : ActionName.ofValue? a = some .addElement →
    ∀ name ∈ limited, ∀ v, property? a name = some v → ∃ x, v = .real x ∧ Within name x
  eased : ActionName.ofValue? a = some .addKeyframe → easing? a ≠ some .null

theorem accepts_of_orderly {a : Value Float} (hsteady : Steady a) (h : Orderly a) :
    action.schema.accepts a = true := by
  refine (accepts_iff_of_steady hsteady).2 ⟨fun hadd m hm v hv => ?_, h.eased⟩
  have hlimited : m.1 ∈ limited := List.mem_map_of_mem (f := Prod.fst) hm
  obtain ⟨x, rfl, hx⟩ := h.measured hadd m.1 hlimited v hv
  exact accepts_measure_of_within hm hx

theorem bind_field?_raised (k : Nat) (v? : Option (Value Float)) (name : String) :
    (v?.map (Placeholder.raised k)).bind (·.field? name) =
      (v?.bind (·.field? name)).map (Placeholder.raised k) := by
  cases v? with
  | none => rfl
  | some v => exact Placeholder.field?_raised k v name

theorem property?_raised (k : Nat) (a : Value Float) (name : String) :
    property? (Placeholder.raised k a) name = (property? a name).map (Placeholder.raised k) := by
  rw [property?, property?, Placeholder.field?_raised, bind_field?_raised, bind_field?_raised]

theorem easing?_raised (k : Nat) (a : Value Float) :
    easing? (Placeholder.raised k a) = (easing? a).map (Placeholder.raised k) := by
  rw [easing?, easing?, Placeholder.field?_raised, bind_field?_raised]

theorem portable_orderly : Composition.Portable Orderly where
  raised k a h := by
    constructor
    · intro hadd name hmem v hv
      rw [property?_raised, Option.map_eq_some_iff] at hv
      obtain ⟨w, hw, rfl⟩ := hv
      rw [ofValue?_raised] at hadd
      obtain ⟨x, rfl, hx⟩ := h.measured hadd name hmem w hw
      exact ⟨x, rfl, hx⟩
    · intro hframe hnull
      rw [easing?_raised, Option.map_eq_some_iff] at hnull
      obtain ⟨w, hw, hnull⟩ := hnull
      rw [ofValue?_raised] at hframe
      have hkind := congrArg Value.kind hnull
      rw [Placeholder.kind_raised] at hkind
      cases w <;> cases hkind
      exact h.eased hframe hw
  placed id parent a hadds h := by
    obtain ⟨hname, payload, hpayload, -⟩ := addedId?_eq_some_iff.1 hadds
    have hplaced := payload_placeUnder (some parent) hpayload
    refine ⟨fun hadd name hmem v hv => ?_, fun hframe => ?_⟩
    · refine h.measured hname name hmem v ?_
      rw [← hv, property?, property?, hplaced, hpayload, Option.bind_some, Option.bind_some,
        Value.field?, Value.field?, Fields.get?_set_ne (by decide)]
    · rw [ofValue?_placeUnder, hname] at hframe
      cases hframe

/-- Clamping leaves a scalar within its limits as it is. -/
theorem eq_of_clamped_within {name : String} {x : Float} {w : Value Float} (h : Within name x)
    (hw : Clamped name (.real x) w) : w = .real x := by
  rw [Within] at h
  have hnone : ∀ b e, Gate.bounds? name = some b → b.beyond? x ≠ some e := by
    intro b e hb he
    rw [hb, Option.all_some, he] at h
    cases h
  cases hw with
  | kept => rfl
  | @lifted b q hb hv hq =>
    obtain ⟨p, hp, hlt⟩ := hq
    exact absurd (Gate.beyond?_eq_some_iff.2 (.inl ⟨(Binary.lt_iff_lt hv hp).2 hlt, rfl⟩))
      (hnone b b.low hb)
  | @capped b q e hb hv he hq =>
    obtain ⟨p, hp, hlt⟩ := hq
    by_cases hlow : x < b.low
    · exact absurd (Gate.beyond?_eq_some_iff.2 (.inl ⟨hlow, rfl⟩)) (hnone b b.low hb)
    · exact absurd (Gate.beyond?_eq_some_iff.2 (.inr ⟨hlow, he, (Binary.lt_iff_lt hp hv).2 hlt⟩))
        (hnone b e hb)

theorem orderly_of_pass {a b : Value Float} (h : Gate.pass a = .ok (some b)) (ha : Orderly a) :
    Orderly b := by
  have hname := Gate.ofValue?_of_pass h
  refine ⟨fun hadd name hmem w hw => ?_, fun hframe => ?_⟩
  · rw [hname] at hadd
    obtain ⟨props, clamped, hprops, hclamped, hall⟩ := properties_of_pass hadd h
    obtain ⟨v, hv, hvw⟩ := Gate.get?_of_clampedFields hall (hclamped ▸ hw)
    obtain ⟨x, rfl, hx⟩ := ha.measured hadd name hmem v (hprops ▸ hv)
    exact ⟨x, eq_of_clamped_within hx hvw, hx⟩
  · rw [easing?_of_pass h]
    exact ha.eased (hname ▸ hframe)

theorem orderly_of_name {a : Value Float} {name : ActionName}
    (h : ActionName.ofValue? a = some name) (hadd : name ≠ .addElement)
    (hframe : name ≠ .addKeyframe) : Orderly a :=
  ⟨fun h' => absurd (Option.some.inj (h.symm.trans h')) hadd,
    fun h' => absurd (Option.some.inj (h.symm.trans h')) hframe⟩

theorem orderly_toValue {a : Action Float} (h : a.Measured) : Orderly a.toValue := by
  cases a with
  | add kind id props parent =>
    refine ⟨fun _ name hmem v hv => ?_, fun hframe => ?_⟩
    · have hne : "id" ≠ name := by
        rintro rfl
        exact absurd hmem (by decide)
      have hprops : Fields.get? props name = some v := by
        simpa [property?, Action.toValue, Action.wire, Value.field?, hne] using hv
      exact h _ (Fields.mem_of_get? hprops) hmem
    · cases (ofValue?_wire _ _).symm.trans hframe
  | update id props => exact orderly_of_name (ofValue?_wire _ _) (by decide) (by decide)
  | board props => exact orderly_of_name (ofValue?_wire _ _) (by decide) (by decide)
  | keyframe k =>
    refine ⟨fun hadd => ?_, fun _ hnull => ?_⟩
    · cases (ofValue?_wire _ _).symm.trans hadd
    have heasing : Fields.get? (Action.keyframePayload k) "easing" = some .null := by
      simpa [easing?, Action.toValue, Action.wire, Value.field?] using hnull
    cases he : k.easing <;> simp [Action.keyframePayload, he] at heasing

theorem every_orderly {as : List (Action Float)} (h : AllMeasured as) :
    Composition.Every Orderly (as.map Action.toValue) :=
  List.forall_mem_map.2 fun a ha => orderly_toValue (h a ha)

/-! ## Answers -/

theorem accepts_text (s : String) : (type [.string] : Schema Float).accepts (.text s) = true :=
  accepts_type_iff.2 (List.mem_singleton.2 rfl)

theorem accepts_list (vs : List (Value Float)) :
    (type [.array] : Schema Float).accepts (.list vs) = true :=
  accepts_type_iff.2 (List.mem_singleton.2 rfl)

/-- A steady action has the form that an answer lists. -/
theorem accepts_listed {a : Value Float} (h : Steady a) :
    (all [type [.object], required ["type", "payload"],
      properties [("type", type [.string])]] : Schema Float).accepts a = true := by
  obtain ⟨name, payload, hname, hpayload, -⟩ := Gate.steady_iff.1 h
  cases a with
  | object fields =>
    have htype := type_of_ofValue? hname
    have hrequired : (required ["type", "payload"] : Schema Float).accepts (.object fields) = true :=
      accepts_required (by simpa using ⟨⟨_, htype⟩, ⟨_, hpayload⟩⟩)
    rw [accepts_all_iff, List.forall_mem_cons, List.forall_mem_cons, List.forall_mem_singleton,
      accepts_properties_iff, List.forall_mem_singleton, forall_field_iff htype]
    exact ⟨accepts_object _, hrequired, accepts_text _⟩
  | _ => cases hpayload

/-- A step of a plan keeps the contract, whatever its actions. -/
theorem accepts_planStep (s : PlanStep Float) :
    (planStep : Schema Float).accepts s.toValue = true := by
  obtain ⟨fields, hfields, htitle, hrationale, hactions⟩ : ∃ fields, s.toValue = .object fields ∧
      Fields.get? fields "title" = some (.text s.title) ∧
      Fields.get? fields "rationale" = some (.text (PlanStep.rationale s.title)) ∧
      Fields.get? fields "actions" = some (.list s.actions) := ⟨_, rfl, rfl, rfl, rfl⟩
  have hrequired : (required ["title", "rationale", "actions"] : Schema Float).accepts
      (.object fields) = true := accepts_required (by simp [htitle, hrationale, hactions])
  rw [hfields, planStep, accepts_all_iff, List.forall_mem_cons, List.forall_mem_cons,
    List.forall_mem_singleton, accepts_properties_iff, List.forall_mem_cons, List.forall_mem_cons,
    List.forall_mem_singleton, forall_field_iff htitle, forall_field_iff hrationale,
    forall_field_iff hactions]
  exact ⟨accepts_object _, hrequired, accepts_text _, accepts_text _, accepts_list _⟩

theorem accepts_plan (summary : String) (steps : List (PlanStep Float)) :
    (plan : Schema Float).accepts (.object [("summary", .text summary),
      ("steps", .list (steps.map PlanStep.toValue))]) = true := by
  obtain ⟨fields, hfields, hsummary, hsteps⟩ : ∃ fields, fields = [("summary", .text summary),
      ("steps", .list (steps.map PlanStep.toValue))] ∧
      Fields.get? fields "summary" = some (.text summary) ∧
      Fields.get? fields "steps" = some (.list (steps.map PlanStep.toValue)) :=
    ⟨_, rfl, rfl, rfl⟩
  have hrequired : (required ["summary", "steps"] : Schema Float).accepts (.object fields) =
      true := accepts_required (by simp [hsummary, hsteps])
  have hitems : (items planStep : Schema Float).accepts (.list (steps.map PlanStep.toValue)) =
      true := accepts_items_iff.2 (List.forall_mem_map.2 fun s _ => accepts_planStep s)
  rw [← hfields, plan, accepts_all_iff, List.forall_mem_cons, List.forall_mem_cons,
    List.forall_mem_singleton, accepts_properties_iff, List.forall_mem_cons,
    List.forall_mem_singleton, forall_field_iff hsummary, forall_field_iff hsteps,
    accepts_all_iff, List.forall_mem_cons, List.forall_mem_singleton]
  exact ⟨accepts_object _, hrequired, accepts_text _, accepts_list _, hitems⟩

/-- An answer keeps its contract when its actions are steady. -/
theorem accepts_answer {o : Outcome Float} (h : ∀ a ∈ o.actions, Steady a) :
    answer.schema.accepts o.toValue = true := by
  obtain ⟨fields, hfields, hsummary, hactions, hplan⟩ : ∃ fields, o.toValue = .object fields ∧
      Fields.get? fields "summary" = some (.text o.summary) ∧
      Fields.get? fields "actions" = some (.list o.actions) ∧
      ∀ v, Fields.get? fields "plan" = some v → (plan : Schema Float).accepts v = true := by
    refine ⟨_, rfl, rfl, rfl, fun v hv => ?_⟩
    cases hempty : o.steps.isEmpty
    · rw [hempty] at hv
      obtain rfl := Option.some.inj hv
      exact accepts_plan _ _
    · rw [hempty] at hv
      cases hv
  have hrequired : (required ["summary", "actions"] : Schema Float).accepts (.object fields) =
      true := accepts_required (by simp [hsummary, hactions])
  rw [hfields, answer, accepts_all_iff, List.forall_mem_cons, List.forall_mem_cons,
    List.forall_mem_singleton, accepts_properties_iff, List.forall_mem_cons, List.forall_mem_cons,
    List.forall_mem_singleton, forall_field_iff hsummary, forall_field_iff hactions,
    accepts_all_iff, List.forall_mem_cons, List.forall_mem_singleton, accepts_items_iff]
  exact ⟨accepts_object _, hrequired, accepts_text _,
    ⟨accepts_list _, fun a ha => accepts_listed (h a ha)⟩, hplan⟩

end Storyboard.Contract
