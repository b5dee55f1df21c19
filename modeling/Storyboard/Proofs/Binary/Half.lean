import Storyboard.Proofs.Binary.Opposite
import Storyboard.Proofs.Binary.Portion
/-!
# Halves of binary numbers

Halving a number takes one from its exponent, or is rounded where the exponent is the least one.
So half of a positive number lies strictly between zero and the number, unless the number is
infinite or the least one of all.
-/

namespace Storyboard.Binary

open Float.Model (UnpackedFloat totalExponent)
open Float.Model.UnpackedFloat

/-! ## Shifting -/

/-- Bits that are all zero leave nothing to round when they are shifted out. -/
theorem shiftRight_mul_two_pow (m n : Nat) :
    ExtendedMantissa.ofMantissaAndAccuracy (m * 2 ^ n) .exact >>> n =
      ExtendedMantissa.ofMantissaAndAccuracy m .exact := by
  show n.repeat ExtendedMantissa.shiftRightOne _ = _
  induction n generalizing m with
  | zero => simp [Nat.repeat]
  | succ n ih =>
      rw [Nat.repeat, Nat.pow_succ, Nat.mul_comm (2 ^ n) 2, ← Nat.mul_assoc, ih]
      simp [ExtendedMantissa.ofMantissaAndAccuracy, ExtendedMantissa.shiftRightOne]

/-- The half of a significand, rounded to the even neighbour. -/
def evenHalf (m : Nat) : Nat := m / 2 + m % 2 * (m / 2 % 2)

theorem evenHalf_lt {m : Nat} (hm : 0 < m) : evenHalf m < m := by
  unfold evenHalf
  rcases Nat.mod_two_eq_zero_or_one m with h | h <;>
    rcases Nat.mod_two_eq_zero_or_one (m / 2) with h' | h' <;> rw [h, h'] <;> omega

theorem evenHalf_eq_zero_iff {m : Nat} : evenHalf m = 0 ↔ m < 2 := by
  unfold evenHalf
  rcases Nat.mod_two_eq_zero_or_one m with h | h <;>
    rcases Nat.mod_two_eq_zero_or_one (m / 2) with h' | h' <;> rw [h, h'] <;> omega

theorem roundedMantissa_half (m n : Nat) :
    (ExtendedMantissa.ofMantissaAndAccuracy (m * 2 ^ n) .exact >>> (n + 1)).roundedMantissa =
      evenHalf m := by
  have hlast : ExtendedMantissa.ofMantissaAndAccuracy (m * 2 ^ n) .exact >>> (n + 1) =
      (ExtendedMantissa.ofMantissaAndAccuracy m .exact).shiftRightOne :=
    congrArg ExtendedMantissa.shiftRightOne (shiftRight_mul_two_pow m n)
  rw [hlast]
  rcases Nat.mod_two_eq_zero_or_one m with h | h <;>
    simp [ExtendedMantissa.ofMantissaAndAccuracy, ExtendedMantissa.shiftRightOne,
      ExtendedMantissa.roundedMantissa, ExtendedMantissa.accuracy, Accuracy.roundToNearestEven,
      evenHalf, h]

/-- A significand that fits stays as it is. -/
theorem shiftToTargetExponent_of_fits {m : Nat} {e : Int} (hm : m < 2 ^ 53) (he : -1074 ≤ e) :
    shiftToTargetExponent .binary64 m e .exact =
      (ExtendedMantissa.ofMantissaAndAccuracy m .exact, e) := by
  have htotal := totalExponent_le (e := e) (by omega) hm
  have hnone : (max (totalExponent m e - 53) (-1074) - e).toNat = 0 := by omega
  simp only [shiftToTargetExponent, shiftToExponent, targetExponent_binary64, hnone]
  exact Prod.ext rfl (by simp)

/-- A first shift to a significand that fits is the only one. -/
theorem roundWithAccuracy_of_fits {m r : Nat} {e t : Int} {em : ExtendedMantissa}
    (hfirst : shiftToTargetExponent .binary64 m e .exact = (em, t))
    (hr : em.roundedMantissa = r) (hfits : r < 2 ^ 53) (ht : -1074 ≤ t) :
    roundWithAccuracy .binary64 .positive m e .exact =
      if h : r = 0 then .zero .positive else .finite .positive r t (Nat.pos_of_ne_zero h) := by
  have hmantissa : (ExtendedMantissa.ofMantissaAndAccuracy r .exact).mantissa = r :=
    mantissa_ofMantissaAndAccuracy r .exact
  unfold roundWithAccuracy
  rw [hfirst]
  dsimp only
  rw [hr, shiftToTargetExponent_of_fits hfits ht]
  dsimp only
  rw [hmantissa]

/-! ## Halves -/

theorem mul_half_of_normal {m : Nat} {e : Int} {hm : 0 < m} (hlow : 2 ^ 52 ≤ m)
    (hhigh : m < 2 ^ 53) (he : -1074 < e) :
    mul .binary64 (.finite .positive m e hm) (0.5 : Float).toModel.unpack =
      .finite .positive m (e - 1) hm := by
  have hlog : (m * 2 ^ 52).log2 = 104 := by
    rw [Nat.log2_eq_iff (by omega)]
    omega
  have htarget : (max (totalExponent (m * 2 ^ 52) (e + -53) - 53) (-1074) - (e + -53)).toNat =
      52 := by
    unfold totalExponent
    omega
  have hfirst : shiftToTargetExponent .binary64 (m * 2 ^ 52) (e + -53) .exact =
      (ExtendedMantissa.ofMantissaAndAccuracy m .exact, e - 1) := by
    simp only [shiftToTargetExponent, shiftToExponent, targetExponent_binary64, htarget,
      shiftRight_mul_two_pow]
    exact Prod.ext rfl (by simp; omega)
  have hround := roundWithAccuracy_of_fits hfirst (r := m) rfl hhigh (by omega)
  rw [dif_neg (by omega)] at hround
  exact hround

theorem mul_half_of_least {m : Nat} {hm : 0 < m} (hhigh : m < 2 ^ 53) :
    mul .binary64 (.finite .positive m (-1074) hm) (0.5 : Float).toModel.unpack =
      if h : evenHalf m = 0 then .zero .positive
      else .finite .positive (evenHalf m) (-1074) (Nat.pos_of_ne_zero h) := by
  have htotal := totalExponent_le (m := m * 2 ^ 52) (b := 105) (e := -1127) (by omega) (by omega)
  have htarget : (max (totalExponent (m * 2 ^ 52) (-1127) - 53) (-1074) - -1127).toNat =
      52 + 1 := by
    omega
  have hfirst : shiftToTargetExponent .binary64 (m * 2 ^ 52) (-1127) .exact =
      (ExtendedMantissa.ofMantissaAndAccuracy (m * 2 ^ 52) .exact >>> (52 + 1), -1074) := by
    simp only [shiftToTargetExponent, shiftToExponent, targetExponent_binary64, htarget]
    rfl
  have hlt := evenHalf_lt hm
  exact roundWithAccuracy_of_fits hfirst (roundedMantissa_half m 52) (by omega) (by omega)

/-- A positive number and its half, unpacked: only the least number has a half of zero, and only
the infinite one is its own half. -/
inductive Halved : UnpackedFloat → UnpackedFloat → Prop
  | infinite : Halved (.infinity .positive) (.infinity .positive)
  | least : Halved (.finite .positive 1 (-1074) Nat.one_pos) (.zero .positive)
  | between {m m' : Nat} {e e' : Int} {hm : 0 < m} {hm' : 0 < m'}
      (above : e = -1074 ∧ 1 < m ∨ -1074 < e) (below : e' < e ∨ e' = e ∧ m' < m) :
      Halved (.finite .positive m e hm) (.finite .positive m' e' hm')

theorem unpack_mul_half (x : Float) : (x * 0.5).toModel.unpack =
    unpack .binary64 (pack .binary64 (mul .binary64 x.toModel.unpack
      (0.5 : Float).toModel.unpack)) :=
  rfl

theorem halved_finite {x : Float} {m : Nat} {e : Int} {hm : 0 < m}
    (hx : x.toModel.unpack = .finite .positive m e hm) :
    Halved x.toModel.unpack (x * 0.5).toModel.unpack := by
  obtain ⟨hhigh, hfirst, hsmall⟩ : m < 2 ^ 53 ∧ -1074 ≤ e ∧ (e = -1074 ∨ 2 ^ 52 ≤ m) := by
    have hcanonical := canonical_unpack x
    rwa [hx] at hcanonical
  have hlast : e ≤ 971 := by
    have hbounded : Bounded 971 x := bounded_of_isFinite (by
      rw [Scalar.isFinite, toRat?_eq_value?, hx]
      rfl)
    unfold Bounded at hbounded
    rw [hx] at hbounded
    exact hbounded.2
  have hpacked : ∀ {m' : Nat} {e' : Int} (hm' : 0 < m'), m' < 2 ^ 53 → -1074 ≤ e' → e' ≤ e →
      (e' = -1074 ∨ 2 ^ 52 ≤ m') →
      unpack .binary64 (pack .binary64 (.finite .positive m' e' hm')) =
        .finite .positive m' e' hm' :=
    fun hm' hhigh' hfirst' hle hsmall' =>
      unpack_pack (And.intro hhigh' ⟨hfirst', hsmall'⟩) (And.intro hhigh' (by omega))
  rw [unpack_mul_half, hx]
  by_cases hleast : e = -1074
  · subst hleast
    have hlt := evenHalf_lt hm
    rw [mul_half_of_least hhigh]
    by_cases hzero : evenHalf m = 0
    · obtain rfl : m = 1 := by
        have := evenHalf_eq_zero_iff.1 hzero
        omega
      exact .least
    · have htwo : 1 < m := by
        have := mt evenHalf_eq_zero_iff.2 hzero
        omega
      rw [dif_neg hzero, hpacked _ (by omega) (by omega) (by omega) (.inl rfl)]
      exact .between (.inl ⟨rfl, htwo⟩) (.inr ⟨rfl, hlt⟩)
  · have hlow : 2 ^ 52 ≤ m := hsmall.resolve_left hleast
    rw [mul_half_of_normal hlow hhigh (by omega),
      hpacked _ hhigh (by omega) (by omega) (.inr hlow)]
    exact .between (.inr (by omega)) (.inl (by omega))

theorem halved {x : Float} (hpos : (0.0 : Float) < x) :
    Halved x.toModel.unpack (x * 0.5).toModel.unpack := by
  obtain ⟨p, q, hp, hq, hbefore⟩ := lt_iff.1 hpos
  obtain rfl : (0, 0, 0) = p := Option.some.inj (rank?_zero.symm.trans hp)
  obtain ⟨hx, -⟩ | ⟨m, e, hm, hx, -⟩ := positive_cases hq hbefore
  · rw [unpack_mul_half, hx]
    exact .infinite
  · exact halved_finite hx

/-! ## Where halves lie -/

theorem lt_iff_before {x y : Float} {p q : Int × Int × Int} (hp : rank? x.toModel.unpack = some p)
    (hq : rank? y.toModel.unpack = some q) : x < y ↔ Before p q := by
  rw [lt_iff]
  simp [hp, hq]

/-- Half of a positive number is below it unless it is infinite, and never above it. -/
theorem half_lt_iff {x : Float} (hpos : (0.0 : Float) < x) :
    (x * 0.5 < x ↔ Scalar.isFinite x = true) ∧ ¬ x < x * 0.5 := by
  have hhalved := halved hpos
  have hfinite : Scalar.isFinite x = (value? x.toModel.unpack).isSome := by
    rw [Scalar.isFinite, toRat?_eq_value?]
  rw [hfinite]
  generalize hx : x.toModel.unpack = u at *
  generalize hy : (x * 0.5).toModel.unpack = v at *
  obtain ⟨p, hp⟩ : ∃ p, rank? v = some p := by cases hhalved <;> exact ⟨_, rfl⟩
  obtain ⟨q, hq⟩ : ∃ q, rank? u = some q := by cases hhalved <;> exact ⟨_, rfl⟩
  rw [lt_iff_before (hy ▸ hp) (hx ▸ hq), lt_iff_before (hx ▸ hq) (hy ▸ hp)]
  cases hhalved <;> cases hp <;> cases hq
  case infinite => exact ⟨iff_of_false (by simp [Before]) Bool.false_ne_true, by simp [Before]⟩
  case least => exact ⟨iff_of_true (by simp [Before]) rfl, by simp [Before]⟩
  case between =>
    constructor
    · refine iff_of_true ?_ rfl
      simp [Before]
      omega
    · simp [Before]
      omega

/-- Half of a positive number is positive unless it is the least one, and never negative. -/
theorem half_pos_iff {x : Float} (hpos : (0.0 : Float) < x) :
    ((0.0 : Float) < x * 0.5 ↔ 5e-324 < x) ∧ ¬ x * 0.5 < 0.0 := by
  have hhalved := halved hpos
  have hleast : rank? (5e-324 : Float).toModel.unpack = some (1, -1074, 1) := by
    decide +kernel
  generalize hx : x.toModel.unpack = u at *
  generalize hy : (x * 0.5).toModel.unpack = v at *
  obtain ⟨p, hp⟩ : ∃ p, rank? v = some p := by cases hhalved <;> exact ⟨_, rfl⟩
  obtain ⟨q, hq⟩ : ∃ q, rank? u = some q := by cases hhalved <;> exact ⟨_, rfl⟩
  rw [lt_iff_before rank?_zero (hy ▸ hp), lt_iff_before hleast (hx ▸ hq),
    lt_iff_before (hy ▸ hp) rank?_zero]
  cases hhalved <;> cases hp <;> cases hq
  case infinite => simp [Before]
  case least => simp [Before]
  case between => simp [Before]; omega

end Storyboard.Binary
