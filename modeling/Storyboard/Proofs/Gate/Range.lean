import Storyboard.Proofs.Gate.Steady
/-!
# Properties in their ranges

Clamping moves a number to the end of its range that it is beyond, and no end is beyond its own
range.  So what was clamped is in range and is clamped no further: whatever passed is steady.
-/

namespace Storyboard.Gate

open Quality (fieldOf objectIn payloadOf isInRange allInRange)

theorem finite?_real_eq_some_iff {x y : Float} :
    (Value.real x).finite? = .ok (some y) ↔ Scalar.isFinite x = true ∧ x = y := by
  simp [Value.finite?]

/-- The end that a number is moved to is in the range. -/
theorem beyond?_end {name : String} {b : Bounds Float} {x e : Float}
    (hb : bounds? name = some b) (he : b.beyond? x = some e) : b.beyond? e = none := by
  have hends : e = b.low ∨ b.high = some e := by
    unfold Bounds.beyond? at he
    split at he
    · exact .inl (Option.some.inj he).symm
    · exact .inr (Option.filter_eq_some_iff.1 he).1
  unfold bounds? at hb
  split at hb
  · cases hb
    rcases hends with rfl | hhigh
    · decide
    · cases hhigh
      decide
  · split at hb
    · cases hb
      rcases hends with rfl | hhigh
      · decide
      · cases hhigh
    · split at hb
      · cases hb
        rcases hends with rfl | hhigh
        · decide
        · cases hhigh
      · split at hb
        · cases hb
          rcases hends with rfl | hhigh
          · decide
          · cases hhigh
        · cases hb

theorem clampProperty_clampProperty {name : String} {v w : Value Float}
    (h : clampProperty name v = .ok w) : clampProperty name w = .ok w := by
  obtain ⟨x?, hx, hw⟩ := map_eq_ok_iff.1 h
  have hkeep : w = v → clampProperty name w = .ok w := by
    rintro rfl
    exact h
  cases x? with
  | none => exact hkeep hw.symm
  | some x =>
      cases hb : bounds? (α := Float) name with
      | none =>
          rw [hb] at hw
          exact hkeep hw.symm
      | some b =>
          rw [hb] at hw
          cases he : b.beyond? x with
          | none =>
              simp only [he, Option.map_none, Option.getD_none] at hw
              exact hkeep hw.symm
          | some e =>
              simp only [he, Option.map_some, Option.getD_some] at hw
              subst hw
              unfold clampProperty Value.finite?
              by_cases hfinite : Scalar.isFinite e = true
              · simp [hfinite, hb, beyond?_end hb he]
              · simp [hfinite]

theorem clampFields_clampFields {props clamped : Fields Float}
    (h : clampFields props = .ok clamped) : clampFields clamped = .ok clamped := by
  induction props generalizing clamped with
  | nil =>
      simp only [clampFields, Except.ok.injEq] at h
      subst h
      rfl
  | cons head rest ih =>
      obtain ⟨name, v⟩ := head
      simp only [clampFields, bind_eq_ok_iff, pure_eq_ok, Except.ok.injEq] at h
      obtain ⟨w, hw, others, hothers, rfl⟩ := h
      simp [clampFields, clampProperty_clampProperty hw, ih hothers]

/-- Whatever passed passes again as it is. -/
theorem steady_of_pass {a b : Value Float} (h : pass a = .ok (some b)) : Steady b := by
  obtain ⟨name, payload, passed, -, hb, -, hpassed, hpass⟩ := payload_of_pass h
  refine steady_iff.2 ⟨name, passed, hb, hpassed, ?_⟩
  by_cases hadd : name = .addElement
  · subst hadd
    obtain ⟨fields, rfl⟩ := object_of_passPayload (.inl rfl) hpass
    obtain ⟨htype, props, hprops, hid, hparent, clamped, hclamped, rfl⟩ :=
      passElement_eq_some_iff.1 hpass
    refine passElement_eq_self_iff.2 ⟨?_, clamped, Fields.get?_set_self _ _ _, ?_, ?_,
      clampFields_clampFields hclamped⟩
    · rw [Fields.get?_set_ne (by decide), htype]
    · cases hv : Fields.get? props "id" with
      | none => simp [hv, isNamed] at hid
      | some v =>
          rw [get?_id_clampFields hclamped hv, ← hv]
          exact hid
    · rw [Fields.get?_set_ne (by decide), hparent]
  by_cases hupdate : name = .updateElement
  · subst hupdate
    obtain ⟨fields, rfl⟩ := object_of_passPayload (.inr (.inl rfl)) hpass
    obtain ⟨hid, props, hprops, clamped, hclamped, rfl⟩ := passUpdate_eq_some_iff.1 hpass
    refine passUpdate_eq_self_iff.2 ⟨?_, clamped, Fields.get?_set_self _ _ _,
      clampFields_clampFields hclamped⟩
    rw [Fields.get?_set_ne (by decide), hid]
  by_cases hframe : name = .addKeyframe
  · subst hframe
    obtain ⟨fields, rfl⟩ := object_of_passPayload (.inr (.inr rfl)) hpass
    obtain ⟨hid, property, hmem, hproperty, time, htime, hlate, value, -, heasing, clamped,
      hclamped, rfl⟩ := passKeyframe_eq_some_iff.1 hpass
    refine passKeyframe_eq_self_iff.2 ⟨?_, property, hmem, ?_, time, ?_, hlate, clamped,
      Fields.get?_set_self _ _ _, ?_, clampProperty_clampProperty hclamped⟩
    · rw [Fields.get?_set_ne (by decide), hid]
    · rw [Fields.get?_set_ne (by decide), hproperty]
    · rw [fieldOf, Fields.get?_set_ne (by decide)]
      exact htime
    · rw [Fields.get?_set_ne (by decide), heasing]
  · rw [passPayload_eq_self hadd hupdate hframe hpass]
    rw [passPayload_eq_self hadd hupdate hframe hpass] at hpass
    exact hpass

/-- A property is in its range exactly when clamping leaves it as it is. -/
theorem isInRange_of_clampProperty {name : String} {v w : Value Float}
    (h : clampProperty name v = .ok w) :
    ∃ ranged, isInRange name v = .ok ranged ∧ (ranged = true ↔ w = v) := by
  obtain ⟨x?, hx, hw⟩ := map_eq_ok_iff.1 h
  unfold isInRange
  rw [hx]
  cases x? with
  | none => exact ⟨true, rfl, iff_of_true rfl hw.symm⟩
  | some x =>
      cases hb : bounds? (α := Float) name with
      | none =>
          rw [hb] at hw
          exact ⟨true, rfl, iff_of_true rfl hw.symm⟩
      | some b =>
          rw [hb] at hw
          cases he : b.beyond? x with
          | none =>
              simp only [he, Option.map_none, Option.getD_none] at hw
              exact ⟨true, by simp [he], iff_of_true rfl hw.symm⟩
          | some e =>
              simp only [he, Option.map_some, Option.getD_some] at hw
              refine ⟨false, by simp [he], iff_of_false Bool.false_ne_true ?_⟩
              -- The end of the range would be beyond itself.
              rintro rfl
              subst hw
              have hxe : x = e := (finite?_real_eq_some_iff.1 hx).2.symm
              rw [hxe, beyond?_end hb he] at he
              simp at he

theorem allInRange_of_clampFields {props clamped : Fields Float}
    (h : clampFields props = .ok clamped) :
    ∃ ranged, allInRange props = .ok ranged ∧ (ranged = true ↔ clamped = props) := by
  induction props generalizing clamped with
  | nil => exact ⟨true, rfl, iff_of_true rfl (Except.ok.inj h).symm⟩
  | cons head rest ih =>
      obtain ⟨name, v⟩ := head
      simp only [clampFields, bind_eq_ok_iff, pure_eq_ok, Except.ok.injEq] at h
      obtain ⟨w, hw, others, hothers, rfl⟩ := h
      obtain ⟨here, hhere, hv⟩ := isInRange_of_clampProperty hw
      obtain ⟨later, hlater, hrest⟩ := ih hothers
      exact ⟨here && later, by simp [allInRange, hhere, hlater], by simp [hv, hrest]⟩

end Storyboard.Gate
