import Mathlib.Order.Basic
import Storyboard.Proofs.Binary.Size
/-!
# Whole numbers in binary

A number is ample when it has a full significand and an exponent that is bounded from below, or is
infinite.  Rounding keeps numbers ample, so a whole number from two up is rounded to no less than
two, and whole numbers are on the same side of the ends of every range before and after rounding.
-/

namespace Storyboard.Binary

open Float.Model (UnpackedFloat Format totalExponent)
open Float.Model.UnpackedFloat

/-- A number with a full significand and an exponent from `k` up, or an infinity. -/
def Ample (s : Sign) (k : Int) : UnpackedFloat → Prop
  | .infinity t => t = s
  | .finite t m e _ => t = s ∧ 2 ^ 52 ≤ m ∧ m < 2 ^ 53 ∧ k ≤ e
  | _ => False

theorem ample_cases {s : Sign} {k : Int} {u : UnpackedFloat} (h : Ample s k u) :
    u = .infinity s ∨ ∃ m e, ∃ hm : 0 < m, u = .finite s m e hm ∧ 2 ^ 52 ≤ m ∧ m < 2 ^ 53 ∧
      k ≤ e := by
  rcases u with t | _ | _ | ⟨t, m, e, hm⟩
  case infinity =>
    obtain rfl := h
    exact .inl rfl
  case finite =>
    obtain ⟨rfl, h⟩ := h
    exact .inr ⟨m, e, hm, rfl, h⟩
  all_goals exact h.elim

/-! ## Rounding -/

theorem le_totalExponent {m b : Nat} {e : Int} (h : 2 ^ b ≤ m) :
    b + 1 + e ≤ totalExponent m e := by
  have hpos : m ≠ 0 := by
    have := Nat.two_pow_pos b
    omega
  have hlog := (Nat.le_log2 hpos).2 h
  unfold totalExponent
  omega

theorem le_roundedMantissa (em : ExtendedMantissa) : em.mantissa ≤ em.roundedMantissa := by
  unfold ExtendedMantissa.roundedMantissa
  rcases em.accuracy with _ | _ | _ | _ <;> simp only [Accuracy.roundToNearestEven] <;> omega

/-- A full significand stays full when it is shifted to its target exponent. -/
theorem full_shiftToTargetExponent {m : Nat} {e : Int} (acc : Accuracy) (hm : 2 ^ 52 ≤ m)
    (ht : -1021 ≤ totalExponent m e) :
    2 ^ 52 ≤ (shiftToTargetExponent .binary64 m e acc).1.mantissa ∧
      (shiftToTargetExponent .binary64 m e acc).2 = totalExponent m e - 53 := by
  have hpos : m ≠ 0 := by omega
  have hlog := (Nat.le_log2 hpos).2 hm
  constructor
  · rw [mantissa_shiftToTargetExponent, Nat.le_div_iff_mul_le (Nat.two_pow_pos _), ← Nat.pow_add]
    refine Nat.le_trans (Nat.pow_le_pow_right (by omega) ?_) (Nat.log2_self_le hpos)
    unfold totalExponent at *
    omega
  · rw [(shiftToTargetExponent_spec m e acc).2]
    unfold totalExponent at *
    omega

theorem ample_roundWithAccuracy {s : Sign} {k : Int} {m : Nat} {e : Int} (acc : Accuracy)
    (hm : 2 ^ 52 ≤ m) (ht : k + 53 ≤ totalExponent m e) (hk : -1074 ≤ k) :
    Ample s k (roundWithAccuracy .binary64 s m e acc) := by
  obtain ⟨hfirst, hfirst'⟩ := full_shiftToTargetExponent (e := e) acc hm (by omega)
  have hrounded : 2 ^ 52 ≤ (shiftToTargetExponent .binary64 m e acc).1.roundedMantissa :=
    Nat.le_trans hfirst (le_roundedMantissa _)
  have htotal := le_totalExponent (e := (shiftToTargetExponent .binary64 m e acc).2) hrounded
  obtain ⟨hlast, hlast'⟩ := full_shiftToTargetExponent
    (e := (shiftToTargetExponent .binary64 m e acc).2) .exact hrounded (by omega)
  have hbits := (shiftToTargetExponent_spec
    (shiftToTargetExponent .binary64 m e acc).1.roundedMantissa
    (shiftToTargetExponent .binary64 m e acc).2 .exact).1
  have hpos : (shiftToTargetExponent .binary64
      (shiftToTargetExponent .binary64 m e acc).1.roundedMantissa
      (shiftToTargetExponent .binary64 m e acc).2 .exact).1.mantissa ≠ 0 := by omega
  have hround : roundWithAccuracy .binary64 s m e acc = .finite s
      (shiftToTargetExponent .binary64 (shiftToTargetExponent .binary64 m e acc).1.roundedMantissa
        (shiftToTargetExponent .binary64 m e acc).2 .exact).1.mantissa
      (shiftToTargetExponent .binary64 (shiftToTargetExponent .binary64 m e acc).1.roundedMantissa
        (shiftToTargetExponent .binary64 m e acc).2 .exact).2 (Nat.pos_of_ne_zero hpos) :=
    dif_neg hpos
  rw [hround]
  exact ⟨rfl, hlast, hbits, by omega⟩

theorem normalize_of_pos {sum : Nat} {e : Int} (hpos : 0 < sum) :
    UnpackedFloat.normalize .binary64 sum e .positive =
      UnpackedFloat.round .binary64 .positive sum e := by
  unfold UnpackedFloat.normalize
  rw [Int.compare_eq_gt.2 (by omega)]
  rfl

theorem ample_ofNat {n b : Nat} (hn : 2 ^ b ≤ n) :
    Ample .positive (b - 52) (UnpackedFloat.ofNat .binary64 n) := by
  have hpos : 0 < n := Nat.lt_of_lt_of_le (Nat.two_pow_pos b) hn
  have hlog := (Nat.le_log2 (by omega : n ≠ 0)).2 hn
  show Ample .positive _ (UnpackedFloat.normalize .binary64 n 0 .positive)
  rw [normalize_of_pos hpos]
  unfold UnpackedFloat.round decreaseExponent
  simp only [targetExponent_binary64]
  generalize hs : (0 - max (totalExponent n 0 - 53) (-1074)).toNat = s
  have hshift : 2 ^ (n.log2 + s) ≤ n <<< s := by
    rw [Nat.shiftLeft_eq, Nat.pow_add]
    exact Nat.mul_le_mul_right _ (Nat.log2_self_le (by omega))
  have hfull : 52 ≤ n.log2 + s := by
    unfold totalExponent at hs
    omega
  have htotal := le_totalExponent (e := 0 - (s : Int)) hshift
  exact ample_roundWithAccuracy .exact
    (Nat.le_trans (Nat.pow_le_pow_right (by omega) hfull) hshift) (by omega) (by omega)

/-! ## Packing -/

theorem ample_unpack_packedInfinity (s : Sign) (k : Int) :
    Ample s k (unpack .binary64 (packedInfinity .binary64 s)) := by
  have hparts := unpacked_packComponents s (-1#11) 0#52
  show Ample s k (unpack .binary64 (packComponents .binary64 s (-1#11) 0#52))
  generalize unpack .binary64 (packComponents .binary64 s (-1#11) 0#52) = v at *
  cases hparts with
  | infinity => rfl
  | notANumber _ hm => exact absurd rfl hm
  | zero h => exact absurd h (by decide)
  | subnormal _ _ _ h => exact absurd h (by decide)
  | normal h => exact absurd rfl h

/-- With an exponent of its own kind, a significand has all its bits, the first of which is not
written. -/
theorem ample_unpack_packComponents (s : Sign) {k : Int} {exponent : BitVec 11}
    (m : BitVec 52) (hlow : exponent ≠ 0#11) (hhigh : exponent ≠ -1#11)
    (hk : k + 1075 ≤ exponent.toNat) :
    Ample s k (unpack .binary64 (packComponents .binary64 s exponent m)) := by
  have hparts := unpacked_packComponents s exponent m
  generalize unpack .binary64 (packComponents .binary64 s exponent m) = v at *
  cases hparts with
  | infinity h => exact absurd h hhigh
  | notANumber h => exact absurd h hhigh
  | zero h => exact absurd h hlow
  | subnormal _ _ _ h => exact absurd h hlow
  | normal _ hn hx =>
    rw [BitVec.toNat_append, ← Nat.shiftLeft_add_eq_or_of_lt (BitVec.isLt _)] at hn
    have hone : (1#1).toNat <<< 52 = 2 ^ 52 := rfl
    have hrest := BitVec.isLt m
    exact ⟨rfl, by omega, by omega, by omega⟩

theorem ample_unpack_pack {s : Sign} {k : Int} {u : UnpackedFloat} (h : Ample s k u)
    (hk : -1074 ≤ k) : Ample s k (unpack .binary64 (pack .binary64 u)) := by
  obtain rfl | ⟨m, e, hm, rfl, hfull, hbits, he⟩ := ample_cases h
  · exact ample_unpack_packedInfinity s k
  · rw [pack_finite]
    split
    · exact ample_unpack_packedInfinity s k
    · rename_i hlarge
      have hsmall := Nat.lt_of_not_le hlarge
      rw [if_pos (by rw [log2_eq_of_normal hfull hbits])]
      refine ample_unpack_packComponents s _ (exponent_ne_zero (by omega) hsmall)
        (exponent_ne_ones hsmall) ?_
      rw [toNat_exponent hsmall]
      omega

/-! ## Products -/

theorem ample_mul_finite {k : Int} {m m' : Nat} {e e' : Int} {hm : 0 < m} {hm' : 0 < m'}
    (hfull : 2 ^ 52 ≤ m * m') (ht : k + 53 ≤ totalExponent (m * m') (e + e')) (hk : -1074 ≤ k) :
    Ample .positive k (mul .binary64 (.finite .positive m e hm) (.finite .positive m' e' hm')) :=
  ample_roundWithAccuracy .exact hfull ht hk

theorem ample_mul {j k : Int} {a b : UnpackedFloat} (ha : Ample .positive j a)
    (hb : Ample .positive k b) (hroom : -1126 ≤ j + k) :
    Ample .positive (j + k + 52) (mul .binary64 a b) := by
  obtain rfl | ⟨m, e, hm, rfl, hfull, -, he⟩ := ample_cases ha
  · obtain rfl | ⟨m', e', hm', rfl, -, -, -⟩ := ample_cases hb <;> rfl
  · obtain rfl | ⟨m', e', hm', rfl, hfull', -, he'⟩ := ample_cases hb
    · rfl
    · have hproduct : 2 ^ 104 ≤ m * m' := by
        calc 2 ^ 104 = 2 ^ 52 * 2 ^ 52 := by rw [← Nat.pow_add]
          _ ≤ m * m' := Nat.mul_le_mul hfull hfull'
      have htotal := le_totalExponent (e := e + e') hproduct
      exact ample_mul_finite (Nat.le_trans (by decide) hproduct) (by omega) (by omega)

theorem ample_neg {k : Int} {u : UnpackedFloat} (h : Ample .positive k u) :
    Ample .negative k u.neg := by
  obtain rfl | ⟨m, e, hm, rfl, hsize⟩ := ample_cases h
  · rfl
  · exact ⟨rfl, hsize⟩

/-! ## Whole numbers -/

theorem ample_ofScientific {n b : Nat} (hn : 2 ^ b ≤ n) :
    Ample .positive (b - 52) (UnpackedFloat.ofScientific .binary64 n 0) := by
  have hpos : n ≠ 0 := by
    have := Nat.two_pow_pos b
    omega
  have hroom : -1074 ≤ (b : Int) - 52 := by omega
  have hbits : Format.binary64.mantissaBits = 53 := rfl
  have hmargin : (b : Int) - 52 + 53 ≤ ((b + 53 : Nat) : Int) + 1 +
      (-(Format.binary64.mantissaBits : Int) + 0) := by
    rw [hbits]
    omega
  have hfull : 2 ^ 52 ≤ 2 ^ (b + 53) := Nat.pow_le_pow_right (by decide) (by omega)
  have hhigh : ¬ (0 : Int) > 2 ^ Format.binary64.exponentBits := by decide
  have hlow : ¬ (0 : Int) < -(2 ^ Format.binary64.exponentBits + (n.log2 : Int)) := by
    show ¬ (0 : Int) < -(2 ^ 11 + (n.log2 : Int))
    omega
  have hshift : 2 ^ (b + 53) ≤ n <<< Format.binary64.mantissaBits := by
    rw [hbits, Nat.shiftLeft_eq, Nat.pow_add]
    exact Nat.mul_le_mul_right _ hn
  unfold UnpackedFloat.ofScientific
  rw [dif_neg hpos, if_neg hhigh, if_neg hlow, if_pos (Int.le_refl 0)]
  refine ample_mul_finite ?_ ?_ ?_
  · rw [Int.toNat_zero, Nat.pow_zero, Nat.mul_one]
    exact Nat.le_trans hfull hshift
  · rw [Int.toNat_zero, Nat.pow_zero, Nat.mul_one]
    exact Int.le_trans hmargin (le_totalExponent hshift)
  · exact hroom

/-- A natural number is rounded to no less than the power of two below it. -/
theorem ample_natural {n b : Nat} (hn : 2 ^ b ≤ n) :
    Ample .positive (b - 52) (Float.ofNat n).toModel.unpack := by
  show Ample _ _ (Float.ofScientific n false 0).toModel.unpack
  unfold Float.ofScientific
  by_cases hsmall : n < 2 ^ 53 ∧ 0 ≤ 22
  · rw [dif_pos hsmall]
    have hword : n.toUInt64.toNat = n := by
      rw [Nat.toUInt64, UInt64.toNat_ofNat']
      omega
    have hdigits : Ample .positive (b - 52) n.toUInt64.toFloat.toModel.unpack := by
      refine ample_unpack_pack (u := UnpackedFloat.ofNat .binary64 n.toUInt64.toNat) ?_ (by omega)
      rw [hword]
      exact ample_ofNat hn
    have hone : Ample .positive (-52) (Float.exactlyRepresentablePowersOfTen[0]).toModel.unpack :=
      ⟨rfl, by decide, by decide, by decide⟩
    have hproduct := ample_unpack_pack (ample_mul hdigits hone (by omega)) (by omega)
    rwa [show (b : Int) - 52 + -52 + 52 = b - 52 by omega] at hproduct
  · rw [dif_neg hsmall]
    exact ample_unpack_pack (ample_ofScientific hn) (by omega)

/-- A number that is ample enough is above one with a smaller exponent. -/
theorem lt_of_ample {k e : Int} {m : Int} {low x : Float}
    (hlow : rank? low.toModel.unpack = some (1, e, m)) (he : e < k)
    (h : Ample .positive k x.toModel.unpack) : low < x := by
  rw [lt_iff]
  obtain hx | ⟨m', e', hm', hx, -, -, he'⟩ := ample_cases h
  · exact ⟨(1, e, m), (2, 0, 0), hlow, by rw [hx]; rfl, .inl (by show (1 : Int) < 2; decide)⟩
  · refine ⟨(1, e, m), (1, e', m'), hlow, by rw [hx]; rfl, .inr ⟨rfl, .inl ?_⟩⟩
    show e < e'
    omega

theorem one_lt_of_ample {x : Float} (h : Ample .positive (-51) x.toModel.unpack) : 1.0 < x :=
  lt_of_ample (e := -52) (m := 2 ^ 52) rfl (by decide) h

theorem lt_zero_of_ample {k : Int} {x : Float} (h : Ample .negative k x.toModel.unpack) :
    x < 0.0 := by
  rw [lt_iff]
  obtain hx | ⟨m, e, hm, hx, -, -, he⟩ := ample_cases h
  · exact ⟨(-2, 0, 0), (0, 0, 0), by rw [hx]; rfl, rfl, .inl (by decide)⟩
  · exact ⟨(-1, -e, -m), (0, 0, 0), by rw [hx]; rfl, rfl, .inl (by show (-1 : Int) < 0; decide)⟩

/-- A whole number is rounded to the same side of zero and one. -/
theorem ofInt_cases (n : Int) :
    n < 0 ∧ (Scalar.ofInt n : Float) < 0.0 ∨ n = 0 ∨ n = 1 ∨
      1 < n ∧ (1.0 : Float) < Scalar.ofInt n := by
  rcases n with (_ | _ | n) | n
  · exact .inr (.inl rfl)
  · exact .inr (.inr (.inl rfl))
  · refine .inr (.inr (.inr ⟨?_, one_lt_of_ample (ample_natural (b := 1) (by omega))⟩))
    show (1 : Int) < ((n + 1 + 1 : Nat) : Int)
    omega
  · refine .inl ⟨by omega, lt_zero_of_ample (k := -52) ?_⟩
    exact ample_unpack_pack (ample_neg (ample_natural (b := 0) (by omega))) (by omega)

theorem le_of_lt {x y : Float} (h : x < y) : x ≤ y := by
  have hlt := compare_eq_lt_iff.2 (lt_iff.1 h)
  have hle : (x.toModel.unpack.compare y.toModel.unpack).any (·.isLE) = true := by
    rw [hlt]
    rfl
  exact decide_eq_true_iff.2 hle

theorem ofInt_lt_zero_iff (n : Int) : (Scalar.ofInt n : Float) < 0.0 ↔ n < 0 := by
  obtain ⟨hn, hx⟩ | rfl | rfl | ⟨hn, hx⟩ := ofInt_cases n
  · exact iff_of_true hx hn
  · decide
  · decide
  · exact iff_of_false (not_lt_of_lt (lt_trans (by decide) hx)) (by omega)

theorem ofInt_le_zero_iff (n : Int) : (Scalar.ofInt n : Float) ≤ 0.0 ↔ n ≤ 0 := by
  obtain ⟨hn, hx⟩ | rfl | rfl | ⟨hn, hx⟩ := ofInt_cases n
  · exact iff_of_true (le_of_lt hx) (by omega)
  · decide
  · decide
  · exact iff_of_false (fun hle => not_lt_of_le hle (lt_trans (by decide) hx)) (by omega)

theorem one_lt_ofInt_iff (n : Int) : (1.0 : Float) < Scalar.ofInt n ↔ 1 < n := by
  obtain ⟨hn, hx⟩ | rfl | rfl | ⟨hn, hx⟩ := ofInt_cases n
  · exact iff_of_false (not_lt_of_lt (lt_trans hx (by decide))) (by omega)
  · decide
  · decide
  · exact iff_of_true hx hn

/-- There is no whole number strictly between zero and a bound up to one. -/
theorem ofInt_lt_iff {bound : Float} (hlow : (0.0 : Float) < bound) (hhigh : ¬ (1.0 : Float) < bound)
    (n : Int) : (Scalar.ofInt n : Float) < bound ↔ n < 1 := by
  obtain ⟨hn, hx⟩ | rfl | rfl | ⟨hn, hx⟩ := ofInt_cases n
  · exact iff_of_true (lt_trans hx hlow) (by omega)
  · exact iff_of_true hlow (by decide)
  · exact iff_of_false hhigh (by decide)
  · exact iff_of_false (fun h => hhigh (lt_trans hx h)) (by omega)

end Storyboard.Binary
