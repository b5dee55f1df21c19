import Mathlib.Tactic.NormNum
import Storyboard.Proofs.Binary.Exact
import Storyboard.Proofs.Binary.Whole
import Storyboard.Proofs.Gate.Sequence
/-!
# The gate as a projection

The gate changes an action only in its clamped properties, and there only what is outside of its
range, as exact values have it: that becomes the nearer end.  What passed is not changed again, so
a sequence that passed passes as a whole.
-/

namespace Storyboard.Gate

open Quality (fieldOf)

/-! ## Ranges in exact values -/

/-- The exact value of a finite number.  Truth values are no numbers. -/
def exactly? : Value Float → Option Rat
  | .int n => some n
  | .real x => Scalar.toRat? x
  | _ => none

/-- A value below the lower end of a range. -/
def Under (b : Bounds Float) (q : Rat) : Prop :=
  ∃ p, Scalar.toRat? b.low = some p ∧ q < p

/-- A value above an end of a range. -/
def Over (e : Float) (q : Rat) : Prop :=
  ∃ p, Scalar.toRat? e = some p ∧ p < q

/-- A property after clamping: as it was, or the end of its range that it was outside of. -/
inductive Clamped (name : String) (v : Value Float) : Value Float → Prop
  | kept (h : ∀ b q, bounds? name = some b → exactly? v = some q →
      ¬ Under b q ∧ ∀ e, b.high = some e → ¬ Over e q) : Clamped name v v
  | lifted {b : Bounds Float} {q : Rat} (hb : bounds? name = some b) (hv : exactly? v = some q)
      (hq : Under b q) : Clamped name v (.real b.low)
  | capped {b : Bounds Float} {q : Rat} {e : Float} (hb : bounds? name = some b)
      (hv : exactly? v = some q) (he : b.high = some e) (hq : Over e q) : Clamped name v (.real e)

/-- The exact value of a lower end of a range: zero, or positive and up to one. -/
def IsLow (e : Float) (p : Rat) : Prop :=
  Scalar.toRat? e = some p ∧ (e = 0.0 ∨ 0 < p ∧ p ≤ 1)

theorem IsLow.le_one {e : Float} {p : Rat} (h : IsLow e p) : p ≤ 1 := by
  obtain ⟨hp, rfl | ⟨-, hle⟩⟩ := h
  · obtain rfl : (0 : Rat) = p := Option.some.inj (Binary.toRat?_zero.symm.trans hp)
    norm_num
  · exact hle

theorem isLow_zero : IsLow 0.0 0 := ⟨Binary.toRat?_zero, .inl rfl⟩

theorem isLow_one : IsLow 1.0 1 := ⟨Binary.toRat?_one, .inr (by norm_num)⟩

theorem isLow_hundredth : ∃ p, IsLow 0.01 p :=
  ⟨_, Binary.toRat?_hundredth, .inr (by norm_num)⟩

theorem bounds?_ends {name : String} {b : Bounds Float} (hb : bounds? name = some b) :
    (∃ p, IsLow b.low p) ∧ ∀ e, b.high = some e → e = 1.0 := by
  unfold bounds? at hb
  split at hb
  · cases hb
    exact ⟨⟨0, isLow_zero⟩, fun e he => (Option.some.inj he).symm⟩
  · split at hb
    · cases hb
      exact ⟨isLow_hundredth, fun e he => nomatch he⟩
    · split at hb
      · cases hb
        exact ⟨⟨0, isLow_zero⟩, fun e he => nomatch he⟩
      · split at hb
        · cases hb
          exact ⟨⟨1, isLow_one⟩, fun e he => nomatch he⟩
        · cases hb

theorem exactly?_of_finite? {v : Value Float} {x : Float} (h : v.finite? = .ok (some x)) :
    (∃ n, v = .int n ∧ x = Scalar.ofInt n ∧ exactly? v = some (n : Rat)) ∨
      ∃ q, v = .real x ∧ Scalar.toRat? x = some q ∧ exactly? v = some q := by
  cases v with
  | int n =>
    refine .inl ⟨n, rfl, ?_, rfl⟩
    simp only [Value.finite?, Value.scalarOfInt, map_eq_ok_iff] at h
    obtain ⟨y, hy, hx⟩ := h
    split at hy
    · rw [← Option.some.inj hx, ← Except.ok.inj hy]
    · cases hy
  | real y =>
    obtain ⟨hfinite, rfl⟩ := finite?_real_eq_some_iff.1 h
    obtain ⟨q, hq⟩ := Option.isSome_iff_exists.1 hfinite
    exact .inr ⟨q, rfl, hq, hq⟩
  | _ => cases Except.ok.inj h

theorem finite?_of_exactly? {v : Value Float} {q : Rat} {x? : Option Float}
    (h : v.finite? = .ok x?) (hq : exactly? v = some q) : ∃ x, x? = some x := by
  cases v with
  | int n =>
    obtain ⟨y, -, hy⟩ := map_eq_ok_iff.1 h
    exact ⟨y, hy.symm⟩
  | real y =>
    have hfinite : Scalar.isFinite y = true := Option.isSome_iff_exists.2 ⟨q, hq⟩
    rw [Value.finite?, if_pos hfinite] at h
    exact ⟨y, (Except.ok.inj h).symm⟩
  | _ => cases hq

/-- A number is below a lower end when its exact value is. -/
theorem lt_low_iff {v : Value Float} {x e : Float} {p q : Rat} (hx : v.finite? = .ok (some x))
    (hq : exactly? v = some q) (he : IsLow e p) : x < e ↔ q < p := by
  obtain ⟨n, -, rfl, hn⟩ | ⟨r, -, hr, hv⟩ := exactly?_of_finite? hx
  · obtain rfl : (n : Rat) = q := Option.some.inj (hn.symm.trans hq)
    obtain ⟨hp, rfl | ⟨hlow, hhigh⟩⟩ := he
    · obtain rfl : (0 : Rat) = p := Option.some.inj (Binary.toRat?_zero.symm.trans hp)
      rw [Binary.ofInt_lt_zero_iff, Int.cast_lt_zero]
    · rw [Binary.ofInt_lt_iff ((Binary.lt_iff_lt Binary.toRat?_zero hp).2 hlow)
        (mt (Binary.lt_iff_lt Binary.toRat?_one hp).1 (not_lt.2 hhigh))]
      constructor
      · intro hone
        calc (n : Rat) ≤ 0 := by exact_mod_cast (by omega : n ≤ 0)
          _ < p := hlow
      · intro hlt
        exact_mod_cast hlt.trans_le hhigh
  · obtain rfl : r = q := Option.some.inj (hv.symm.trans hq)
    exact Binary.lt_iff_lt hr he.1

theorem one_lt_iff {v : Value Float} {x : Float} {q : Rat} (hx : v.finite? = .ok (some x))
    (hq : exactly? v = some q) : (1.0 : Float) < x ↔ 1 < q := by
  obtain ⟨n, -, rfl, hn⟩ | ⟨r, -, hr, hv⟩ := exactly?_of_finite? hx
  · obtain rfl : (n : Rat) = q := Option.some.inj (hn.symm.trans hq)
    rw [Binary.one_lt_ofInt_iff]
    exact_mod_cast Iff.rfl
  · obtain rfl : r = q := Option.some.inj (hv.symm.trans hq)
    exact Binary.lt_iff_lt Binary.toRat?_one hr

theorem le_zero_iff {v : Value Float} {x : Float} {q : Rat} (hx : v.finite? = .ok (some x))
    (hq : exactly? v = some q) : x ≤ 0.0 ↔ q ≤ 0 := by
  obtain ⟨n, -, rfl, hn⟩ | ⟨r, -, hr, hv⟩ := exactly?_of_finite? hx
  · obtain rfl : (n : Rat) = q := Option.some.inj (hn.symm.trans hq)
    rw [Binary.ofInt_le_zero_iff]
    exact_mod_cast Iff.rfl
  · obtain rfl : r = q := Option.some.inj (hv.symm.trans hq)
    exact Binary.le_iff_le hr Binary.toRat?_zero

theorem beyond?_eq_some_iff {b : Bounds Float} {x e : Float} :
    b.beyond? x = some e ↔ x < b.low ∧ b.low = e ∨ ¬ x < b.low ∧ b.high = some e ∧ e < x := by
  unfold Bounds.beyond?
  split <;> simp_all [Option.filter_eq_some_iff]

section

variable {name : String} {b : Bounds Float} {v : Value Float} {x : Float} {q : Rat}

theorem exists_exactly?_of_finite? (hx : v.finite? = .ok (some x)) : ∃ q, exactly? v = some q := by
  obtain ⟨n, -, -, hn⟩ | ⟨q, -, -, hq⟩ := exactly?_of_finite? hx
  · exact ⟨n, hn⟩
  · exact ⟨q, hq⟩

/-- Comparing with the low end of a range is exact. -/
theorem lt_low_iff_under (hb : bounds? name = some b) (hx : v.finite? = .ok (some x))
    (hq : exactly? v = some q) : x < b.low ↔ Under b q := by
  obtain ⟨⟨p, hlow⟩, -⟩ := bounds?_ends hb
  rw [lt_low_iff hx hq hlow]
  simp [Under, hlow.1]

/-- So is comparing with the high end. -/
theorem high_lt_iff_over {e : Float} (hb : bounds? name = some b) (he : b.high = some e)
    (hx : v.finite? = .ok (some x)) (hq : exactly? v = some q) : e < x ↔ Over e q := by
  rw [(bounds?_ends hb).2 e he, one_lt_iff hx hq]
  simp [Over, Binary.toRat?_one]

end

theorem clamped_of_clampProperty {name : String} {v w : Value Float}
    (h : clampProperty name v = .ok w) : Clamped name v w := by
  obtain ⟨x?, hx, hw⟩ := map_eq_ok_iff.1 h
  cases hb : bounds? (α := Float) name with
  | none =>
    rw [hb] at hw
    obtain rfl : v = w := by cases x? <;> exact hw
    exact .kept fun b q hb' => by rw [hb] at hb'; cases hb'
  | some b =>
    cases x? with
    | none =>
      obtain rfl : v = w := hw
      refine .kept fun b' q _ hq => ?_
      obtain ⟨x, hsome⟩ := finite?_of_exactly? hx hq
      cases hsome
    | some x =>
      obtain ⟨q, hq⟩ := exists_exactly?_of_finite? hx
      have hunder := lt_low_iff_under hb hx hq
      have hover := fun e (he : b.high = some e) => high_lt_iff_over hb he hx hq
      rw [hb] at hw
      simp only at hw
      cases he : b.beyond? x with
      | none =>
        rw [he] at hw
        obtain rfl : v = w := hw
        refine .kept fun b' q' hb' hq' => ?_
        rw [hb, Option.some.injEq] at hb'
        rw [hq, Option.some.injEq] at hq'
        subst hb' hq'
        unfold Bounds.beyond? at he
        split at he
        · cases he
        · refine ⟨mt hunder.2 ‹_›, fun e hend => mt (hover e hend).2 ?_⟩
          simpa [hend] using he
      | some e =>
        rw [he] at hw
        obtain rfl : Value.real e = w := hw
        obtain ⟨hlt, rfl⟩ | ⟨-, hend, hlt⟩ := beyond?_eq_some_iff.1 he
        · exact .lifted hb hq (hunder.1 hlt)
        · exact .capped hb hq hend ((hover e hend).1 hlt)

/-- What was clamped is in its range. -/
theorem within_of_clamped {name : String} {b : Bounds Float} {v w : Value Float} {p q : Rat}
    (hb : bounds? name = some b) (hlow : IsLow b.low p) (hv : exactly? v = some q)
    (h : Clamped name v w) :
    ∃ r, exactly? w = some r ∧ p ≤ r ∧ ∀ e, b.high = some e → r ≤ 1 := by
  have hhigh := (bounds?_ends hb).2
  cases h with
  | kept h =>
    obtain ⟨hunder, hover⟩ := h b q hb hv
    refine ⟨q, hv, not_lt.1 fun hlt => hunder ⟨p, hlow.1, hlt⟩, fun e he => not_lt.1 fun hlt => ?_⟩
    obtain rfl := hhigh e he
    exact hover 1.0 he ⟨1, Binary.toRat?_one, hlt⟩
  | @lifted b' _ hb' _ _ =>
    obtain rfl : b = b' := Option.some.inj (hb.symm.trans hb')
    exact ⟨p, hlow.1, le_refl p, fun _ _ => hlow.le_one⟩
  | @capped b' _ e hb' _ he _ =>
    obtain rfl : b = b' := Option.some.inj (hb.symm.trans hb')
    obtain rfl := hhigh e he
    exact ⟨1, Binary.toRat?_one, hlow.le_one, fun _ _ => le_refl 1⟩

/-! ## Actions -/

/-- Properties after clamping: the same names, each with its value clamped. -/
def ClampedFields (props clamped : Fields Float) : Prop :=
  List.Forall₂ (fun old new => old.1 = new.1 ∧ Clamped old.1 old.2 new.2) props clamped

/-- The payload of an action after clamping, by the name of the action. -/
inductive ClampedPayload : ActionName → Value Float → Value Float → Prop
  | props {name : ActionName} {fields props clamped : Fields Float}
      (hname : name = .addElement ∨ name = .updateElement)
      (hprops : Fields.get? fields "props" = some (.object props))
      (h : ClampedFields props clamped) :
      ClampedPayload name (.object fields) (.object (Fields.set fields "props" (.object clamped)))
  | value {fields : Fields Float} {property : String} {v w : Value Float}
      (hproperty : Fields.get? fields "property" = some (.text property))
      (hvalue : Fields.get? fields "value" = some v) (h : Clamped property v w) :
      ClampedPayload .addKeyframe (.object fields) (.object (Fields.set fields "value" w))
  | same {name : ActionName} {payload : Value Float} (hadd : name ≠ .addElement)
      (hupdate : name ≠ .updateElement) (hframe : name ≠ .addKeyframe) :
      ClampedPayload name payload payload

/-- An action after the gate: the same fields, with the payload clamped. -/
inductive ClampedAction : Value Float → Value Float → Prop
  | of {fields : Fields Float} {name : ActionName} {payload passed : Value Float}
      (hname : ActionName.ofValue? (.object fields) = some name)
      (hpayload : Fields.get? fields "payload" = some payload)
      (h : ClampedPayload name payload passed) :
      ClampedAction (.object fields) (.object (Fields.set fields "payload" passed))

/-- The names of the fields of an object, in order. -/
def names? (v : Value Float) : Option (List String) := v.fields?.map (·.map Prod.fst)

theorem clampedFields_of_clampFields {props clamped : Fields Float}
    (h : clampFields props = .ok clamped) : ClampedFields props clamped := by
  induction props generalizing clamped with
  | nil =>
      obtain rfl := Except.ok.inj h
      exact .nil
  | cons head rest ih =>
      obtain ⟨name, v⟩ := head
      simp only [clampFields, bind_eq_ok_iff, pure_eq_ok, Except.ok.injEq] at h
      obtain ⟨w, hw, others, hothers, rfl⟩ := h
      exact .cons ⟨rfl, clamped_of_clampProperty hw⟩ (ih hothers)

theorem get?_of_clampedFields {props clamped : Fields Float} (h : ClampedFields props clamped)
    {name : String} {w : Value Float} (hw : Fields.get? clamped name = some w) :
    ∃ v, Fields.get? props name = some v ∧ Clamped name v w := by
  induction h with
  | nil => simp at hw
  | @cons old new _ _ hhead _ ih =>
      obtain ⟨key, v⟩ := old
      obtain ⟨_, w'⟩ := new
      obtain ⟨rfl, hclamped⟩ := hhead
      by_cases hkey : key = name
      · subst hkey
        obtain rfl : w' = w := by simpa using hw
        exact ⟨v, by simp, hclamped⟩
      · simp only [Fields.get?_cons, hkey, if_false] at hw ⊢
        exact ih hw

theorem clamped_get?_of_get? {props clamped : Fields Float} (h : ClampedFields props clamped)
    {name : String} {v : Value Float} (hv : Fields.get? props name = some v) :
    ∃ w, Fields.get? clamped name = some w ∧ Clamped name v w := by
  induction h with
  | nil => simp at hv
  | @cons old new _ _ hhead _ ih =>
      obtain ⟨key, v'⟩ := old
      obtain ⟨_, w⟩ := new
      obtain ⟨rfl, hclamped⟩ := hhead
      by_cases hkey : key = name
      · subst hkey
        obtain rfl : v' = v := by simpa using hv
        exact ⟨w, by simp, hclamped⟩
      · simp only [Fields.get?_cons, hkey, if_false] at hv ⊢
        exact ih hv

theorem clampedPayload_of_passPayload {name : ActionName} {payload passed : Value Float}
    (h : passPayload name payload = .ok (some passed)) : ClampedPayload name payload passed := by
  by_cases hadd : name = .addElement
  · subst hadd
    obtain ⟨fields, rfl⟩ := object_of_passPayload (.inl rfl) h
    obtain ⟨-, props, hprops, -, -, clamped, hclamped, rfl⟩ := passElement_eq_some_iff.1 h
    exact .props (.inl rfl) hprops (clampedFields_of_clampFields hclamped)
  by_cases hupdate : name = .updateElement
  · subst hupdate
    obtain ⟨fields, rfl⟩ := object_of_passPayload (.inr (.inl rfl)) h
    obtain ⟨-, props, hprops, clamped, hclamped, rfl⟩ := passUpdate_eq_some_iff.1 h
    exact .props (.inr rfl) hprops (clampedFields_of_clampFields hclamped)
  by_cases hframe : name = .addKeyframe
  · subst hframe
    obtain ⟨fields, rfl⟩ := object_of_passPayload (.inr (.inr rfl)) h
    obtain ⟨-, property, -, hproperty, -, -, -, v, hv, -, w, hw, rfl⟩ :=
      passKeyframe_eq_some_iff.1 h
    exact .value hproperty hv (clamped_of_clampProperty hw)
  · obtain rfl := passPayload_eq_self hadd hupdate hframe h
    exact .same hadd hupdate hframe

theorem clampedAction_of_pass {a b : Value Float} (h : pass a = .ok (some b)) :
    ClampedAction a b := by
  obtain ⟨fields, rfl, name, hname, payload, hpayload, passed, hpass, rfl⟩ := pass_eq_some_iff.1 h
  exact .of hname hpayload (clampedPayload_of_passPayload hpass)

theorem names?_of_clampedPayload {name : ActionName} {payload passed : Value Float}
    (h : ClampedPayload name payload passed) : names? passed = names? payload := by
  cases h with
  | props _ hprops _ => exact congrArg some (Fields.names_set hprops _)
  | value _ hvalue _ => exact congrArg some (Fields.names_set hvalue _)
  | same => rfl

theorem names?_of_clampedAction {a b : Value Float} (h : ClampedAction a b) :
    names? b = names? a ∧ (b.field? "payload").bind names? = (a.field? "payload").bind names? := by
  obtain ⟨-, hpayload, h⟩ := h
  refine ⟨congrArg some (Fields.names_set hpayload _), ?_⟩
  simp only [Value.field?, Fields.get?_set_self, hpayload, Option.bind_some]
  exact names?_of_clampedPayload h

/-- What passes has the fields it had, with nothing changed but properties outside of their
ranges, and passes again as it is; so does every sequence that passed. -/
theorem pass_projects :
    (∀ a b : Value Float, pass a = .ok (some b) →
      ClampedAction a b ∧ names? b = names? a ∧
        (b.field? "payload").bind names? = (a.field? "payload").bind names? ∧
        pass b = .ok (some b)) ∧
      ∀ (as : List (Value Float)) (r : Passage Float), passValue (.list as) = .ok r →
        passValue (.list r.actions) = .ok ⟨r.actions, []⟩ := by
  constructor
  · intro a b h
    have hclamped := clampedAction_of_pass h
    obtain ⟨hnames, hpayload⟩ := names?_of_clampedAction hclamped
    exact ⟨hclamped, hnames, hpayload, steady_of_pass h⟩
  · intro as r h
    exact passFrom_of_steady (steady_of_passFrom h)

/-- A new element with an opacity, an outline and a property of its own. -/
def glowing (opacity width : Value Float) : Value Float := .object [
  ("type", .text "ADD_ELEMENT"),
  ("payload", .object [
    ("type", .text "rect"),
    ("props", .object [
      ("id", .text "a"), ("opacity", opacity), ("strokeWidth", width), ("glow", .real 7.0)])])]

theorem pass_projects_glowing :
    pass (glowing (.real 2.5) (.int (-3))) = .ok (some (glowing (.real 1.0) (.real 0.0))) ∧
      ClampedAction (glowing (.real 2.5) (.int (-3))) (glowing (.real 1.0) (.real 0.0)) ∧
      pass (glowing (.real 1.0) (.real 0.0)) = .ok (some (glowing (.real 1.0) (.real 0.0))) ∧
      passValue (.list [glowing (.real 2.5) (.int (-3)), .null]) =
        .ok ⟨[glowing (.real 1.0) (.real 0.0)], [.dropped 1]⟩ ∧
      passValue (.list [glowing (.real 1.0) (.real 0.0)]) =
        .ok ⟨[glowing (.real 1.0) (.real 0.0)], []⟩ := by
  have hpass : pass (glowing (.real 2.5) (.int (-3))) =
      .ok (some (glowing (.real 1.0) (.real 0.0))) := by rfl
  have hall : passValue (.list [glowing (.real 2.5) (.int (-3)), .null]) =
      .ok ⟨[glowing (.real 1.0) (.real 0.0)], [.dropped 1]⟩ := by
    have hnull : pass (.null : Value Float) = .ok none := rfl
    simp [passValue, passAll, passFrom, hpass, hnull]
  obtain ⟨hclamped, -, -, hagain⟩ := pass_projects.1 _ _ hpass
  exact ⟨hpass, hclamped, hagain, hall, pass_projects.2 _ _ hall⟩

end Storyboard.Gate
