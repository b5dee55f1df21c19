import Storyboard.Scalar
/-!
# The order of binary numbers

Every number but the undefined one has a rank: its sign and kind come first, then exponent and
significand.  One number is below another when its rank is.  The smaller and the larger of two
numbers, and numbers moved into a range, follow from that.
-/

namespace Storyboard.Binary

open Float.Model (UnpackedFloat)

/-- What two unpacked numbers are compared by. -/
def rank? : UnpackedFloat → Option (Int × Int × Int)
  | .notANumber => none
  | .infinity .negative => some (-2, 0, 0)
  | .finite .negative m e _ => some (-1, -e, -m)
  | .zero _ => some (0, 0, 0)
  | .finite .positive m e _ => some (1, e, m)
  | .infinity .positive => some (2, 0, 0)

def Before (a b : Int × Int × Int) : Prop :=
  a.1 < b.1 ∨ a.1 = b.1 ∧ (a.2.1 < b.2.1 ∨ a.2.1 = b.2.1 ∧ a.2.2 < b.2.2)

theorem then_eq_lt_iff {e e' : Int} {m m' : Nat} :
    (compare e e').then (compare m m') = .lt ↔ e < e' ∨ e = e' ∧ m < m' := by
  rw [Ordering.then_eq_lt, Int.compare_eq_lt, Int.compare_eq_eq, Nat.compare_eq_lt]

theorem then_eq_gt_iff {e e' : Int} {m m' : Nat} :
    (compare e e').then (compare m m') = .gt ↔ e' < e ∨ e = e' ∧ m' < m := by
  rw [Ordering.then_eq_gt, Int.compare_eq_gt, Int.compare_eq_eq, Nat.compare_eq_gt]

theorem compare_eq_lt_iff {a b : UnpackedFloat} :
    a.compare b = some .lt ↔ ∃ p q, rank? a = some p ∧ rank? b = some q ∧ Before p q := by
  rcases a with (_ | _) | _ | _ | ⟨_ | _, m, e, hm⟩ <;>
    rcases b with (_ | _) | _ | _ | ⟨_ | _, m', e', hm'⟩ <;>
    dsimp only [UnpackedFloat.compare, rank?] <;>
    simp [Before, then_eq_lt_iff, then_eq_gt_iff]
  rfl

theorem compare_eq_gt_iff {a b : UnpackedFloat} :
    a.compare b = some .gt ↔ ∃ p q, rank? a = some p ∧ rank? b = some q ∧ Before q p := by
  rcases a with (_ | _) | _ | _ | ⟨_ | _, m, e, hm⟩ <;>
    rcases b with (_ | _) | _ | _ | ⟨_ | _, m', e', hm'⟩ <;>
    dsimp only [UnpackedFloat.compare, rank?] <;>
    simp [Before, then_eq_lt_iff, then_eq_gt_iff]
  · rfl
  · rw [@eq_comm _ e e']
  · rw [@eq_comm _ e e']

theorem lt_iff {x y : Float} :
    x < y ↔ ∃ p q, rank? x.toModel.unpack = some p ∧ rank? y.toModel.unpack = some q ∧
      Before p q := by
  rw [← compare_eq_lt_iff]
  show decide (x.toModel < y.toModel) = true ↔ _
  rw [decide_eq_true_iff]
  show x.toModel.unpack.lt y.toModel.unpack = true ↔ _
  simp [UnpackedFloat.lt]

theorem rank?_zero : rank? (0.0 : Float).toModel.unpack = some (0, 0, 0) :=
  rfl

/-- No number is below one that is below it. -/
theorem not_lt_of_lt {x y : Float} (h : x < y) : ¬ y < x := by
  rw [lt_iff] at *
  rintro ⟨q', p', hq', hp', hback⟩
  obtain ⟨p, q, hp, hq, hbefore⟩ := h
  rw [hp, Option.some.injEq] at hp'
  rw [hq, Option.some.injEq] at hq'
  subst hp' hq'
  simp only [Before] at *
  omega

theorem not_lt_of_le {x y : Float} (h : x ≤ y) : ¬ y < x := by
  have hle : (x.toModel.unpack.compare y.toModel.unpack).any (·.isLE) = true := by
    have hmodel : x.toModel ≤ y.toModel := of_decide_eq_true h
    exact hmodel
  rw [lt_iff]
  rintro ⟨q, p, hq, hp, hbefore⟩
  rw [compare_eq_gt_iff.2 ⟨p, q, hp, hq, hbefore⟩] at hle
  simp at hle

theorem lt_trans {x y z : Float} (hxy : x < y) (hyz : y < z) : x < z := by
  rw [lt_iff] at *
  obtain ⟨p, q, hp, hq, hpq⟩ := hxy
  obtain ⟨q', r, hq', hr, hqr⟩ := hyz
  rw [hq, Option.some.injEq] at hq'
  subst hq'
  refine ⟨p, r, hp, hr, ?_⟩
  simp only [Before] at *
  omega

/-! ## Numbers that can be compared -/

theorem isUndefined_eq_false_iff {x : Float} :
    Scalar.isUndefined x = false ↔ ∃ r, rank? x.toModel.unpack = some r := by
  have hself : Scalar.isUndefined x = false ↔
      (x.toModel.unpack.compare x.toModel.unpack).any (·.isLE) = true := by
    rw [Scalar.isUndefined, Bool.not_eq_false', decide_eq_true_iff]
    exact decide_eq_true_iff
  rw [hself]
  rcases x.toModel.unpack with (_ | _) | _ | _ | ⟨_ | _, m, e, hm⟩ <;>
    dsimp only [UnpackedFloat.compare, rank?] <;> simp <;> rfl

theorem isUndefined_of_lt {x y : Float} (h : x < y) :
    Scalar.isUndefined x = false ∧ Scalar.isUndefined y = false := by
  obtain ⟨p, q, hp, hq, -⟩ := lt_iff.1 h
  exact ⟨isUndefined_eq_false_iff.2 ⟨p, hp⟩, isUndefined_eq_false_iff.2 ⟨q, hq⟩⟩

/-- Not to be below is passed on over a number that can be compared. -/
theorem not_lt_trans {x y z : Float} (hy : Scalar.isUndefined y = false) (hxy : ¬ x < y)
    (hyz : ¬ y < z) : ¬ x < z := by
  obtain ⟨q, hq⟩ := isUndefined_eq_false_iff.1 hy
  rw [lt_iff] at *
  rintro ⟨p, r, hp, hr, hpr⟩
  have hpq : ¬ Before p q := fun h => hxy ⟨p, q, hp, hq, h⟩
  have hqr : ¬ Before q r := fun h => hyz ⟨q, r, hq, hr, h⟩
  simp only [Before] at *
  omega

/-! ## Moving into a range -/

theorem max_eq_or_lt (low x : Float) : Scalar.max low x = low ∨ low < Scalar.max low x := by
  unfold Scalar.max
  split
  · exact .inr ‹_›
  · exact .inl rfl

/-- A number that was moved into a range is not below its lower end. -/
theorem not_lt_low (x low high : Float) : ¬ Scalar.clamp x low high < low := by
  intro hlt
  rcases max_eq_or_lt low (Scalar.min high x) with heq | hgt
  · have hself : low < low := by
      rwa [Scalar.clamp, heq] at hlt
    exact not_lt_of_lt hself hself
  · exact not_lt_of_lt hgt hlt

/-- A number that was moved into a range is not below anything that the lower end is above. -/
theorem not_lt_of_clamp {x low high bound : Float} (h : bound < low) :
    ¬ Scalar.clamp x low high < bound := by
  unfold Scalar.clamp
  rcases max_eq_or_lt low (Scalar.min high x) with heq | hlt
  · rw [heq]
    exact not_lt_of_lt h
  · exact not_lt_of_lt (lt_trans h hlt)

/-- Nothing that neither end of a range is above is below a number that was moved into it. -/
theorem not_lt_clamp {x low high bound : Float} (hlow : ¬ bound < low) (hhigh : ¬ bound < high) :
    ¬ bound < Scalar.clamp x low high := by
  have hmin : ¬ bound < Scalar.min high x := by
    unfold Scalar.min
    split
    · exact fun h => hhigh (lt_trans h ‹_›)
    · exact hhigh
  unfold Scalar.clamp Scalar.max
  split
  · exact hmin
  · exact hlow

/-- A number that is not below another one falls below it in a range only when the other one lies
above the range. -/
theorem not_clamp_lt_iff {x low high y : Float} (hrange : low < high) (h : ¬ x < y) :
    ¬ Scalar.clamp x low high < y ↔ ¬ high < y := by
  constructor
  · refine mt fun habove => ?_
    have hmin : Scalar.min high x < y := by
      unfold Scalar.min
      split
      · exact lt_trans ‹_› habove
      · exact habove
    unfold Scalar.clamp Scalar.max
    split
    · exact hmin
    · exact lt_trans hrange habove
  · intro hhigh
    have hmin : ¬ Scalar.min high x < y ∧ Scalar.isUndefined (Scalar.min high x) = false := by
      unfold Scalar.min
      split
      · exact ⟨h, (isUndefined_of_lt ‹_›).1⟩
      · exact ⟨hhigh, (isUndefined_of_lt hrange).2⟩
    unfold Scalar.clamp Scalar.max
    split
    · exact hmin.1
    · exact not_lt_trans hmin.2 ‹_› hmin.1

/-- A number that is not above another one comes to be above it in a range only when the other one
lies below the range. -/
theorem not_lt_clamp_iff {x low high y : Float} (hx : Scalar.isUndefined x = false)
    (h : ¬ y < x) : ¬ y < Scalar.clamp x low high ↔ ¬ y < low := by
  constructor
  · refine mt fun hbelow => ?_
    unfold Scalar.clamp
    rcases max_eq_or_lt low (Scalar.min high x) with heq | hlt
    · rwa [heq]
    · exact lt_trans hbelow hlt
  · intro hlow
    have hmin : ¬ y < Scalar.min high x := by
      unfold Scalar.min
      split
      · exact h
      · exact not_lt_trans hx h ‹_›
    unfold Scalar.clamp Scalar.max
    split
    · exact hmin
    · exact hlow

end Storyboard.Binary
