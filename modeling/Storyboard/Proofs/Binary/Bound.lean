import Mathlib.Algebra.Group.Nat.Defs
import Storyboard.Scalar
/-!
# Bounds of binary numbers

A number is confined when it is zero or finite with a bounded exponent, whatever its sign.  Sums,
differences, products and quotients of confined numbers are rounded to confined ones, with the
bound raised by no more than rounding takes, so they stay finite as long as there is room.
-/

namespace Storyboard.Binary

open Float.Model (UnpackedFloat Format totalExponent)
open Float.Model.UnpackedFloat

/-- Zero or a finite number, with an exponent up to `k`. -/
def Confined (k : Int) : UnpackedFloat → Prop
  | .zero _ => True
  | .finite _ m e _ => m < 2 ^ 53 ∧ e ≤ k
  | _ => False

instance (k : Int) : DecidablePred (Confined k)
  | .zero _ => .isTrue trivial
  | .finite _ m e _ => inferInstanceAs (Decidable (m < 2 ^ 53 ∧ e ≤ k))
  | .infinity _ | .notANumber => .isFalse id

theorem confined_cases {k : Int} {a : UnpackedFloat} (h : Confined k a) :
    (∃ s, a = .zero s) ∨ ∃ s m e, ∃ hm : 0 < m, a = .finite s m e hm ∧ m < 2 ^ 53 ∧ e ≤ k := by
  rcases a with s | _ | s | ⟨s, m, e, hm⟩
  case zero => exact .inl ⟨s, rfl⟩
  case finite => exact .inr ⟨s, m, e, hm, rfl, h⟩
  all_goals exact h.elim

theorem confined_mono {j k : Int} {u : UnpackedFloat} (h : Confined j u) (hjk : j ≤ k) :
    Confined k u := by
  obtain ⟨s, rfl⟩ | ⟨s, m, e, hm, rfl, hm53, he⟩ := confined_cases h
  · trivial
  · exact ⟨hm53, by omega⟩

/-! ## Rounding -/

theorem targetExponent_binary64 (t : Int) :
    Format.binary64.targetExponent t = max (t - 53) (-1074) :=
  rfl

theorem mantissa_shiftRight (em : ExtendedMantissa) (n : Nat) :
    (em >>> n).mantissa = em.mantissa / 2 ^ n := by
  show (n.repeat ExtendedMantissa.shiftRightOne em).mantissa = _
  induction n with
  | zero => simp [Nat.repeat]
  | succ n ih =>
      rw [Nat.repeat, ExtendedMantissa.shiftRightOne, ih, Nat.div_div_eq_div_mul, Nat.pow_succ]

theorem mantissa_ofMantissaAndAccuracy (m : Nat) (acc : Accuracy) :
    (ExtendedMantissa.ofMantissaAndAccuracy m acc).mantissa = m := by
  rcases acc with _ | _ | _ | _ <;> rfl

theorem roundedMantissa_le (em : ExtendedMantissa) : em.roundedMantissa ≤ em.mantissa + 1 := by
  unfold ExtendedMantissa.roundedMantissa
  rcases em.accuracy with _ | _ | _ | _ <;> simp only [Accuracy.roundToNearestEven] <;> omega

theorem totalExponent_le {m b : Nat} {e : Int} (hb : 0 < b) (h : m < 2 ^ b) :
    totalExponent m e ≤ b + e := by
  unfold totalExponent
  by_cases hm : m = 0
  · simp [hm]
    omega
  · have hlog := (Nat.log2_lt hm).2 h
    omega

theorem mantissa_shiftToTargetExponent (m : Nat) (e : Int) (acc : Accuracy) :
    (shiftToTargetExponent .binary64 m e acc).1.mantissa =
      m / 2 ^ (max (totalExponent m e - 53) (-1074) - e).toNat := by
  simp only [shiftToTargetExponent, shiftToExponent, targetExponent_binary64,
    mantissa_shiftRight, mantissa_ofMantissaAndAccuracy]

/-- Shifting to the target exponent leaves a significand that fits. -/
theorem shiftToTargetExponent_spec (m : Nat) (e : Int) (acc : Accuracy) :
    (shiftToTargetExponent .binary64 m e acc).1.mantissa < 2 ^ 53 ∧
      (shiftToTargetExponent .binary64 m e acc).2 =
        max e (max (totalExponent m e - 53) (-1074)) := by
  constructor
  · rw [mantissa_shiftToTargetExponent]
    generalize hs : (max (totalExponent m e - 53) (-1074) - e).toNat = s
    rw [Nat.div_lt_iff_lt_mul (Nat.two_pow_pos s), ← Nat.pow_add]
    refine Nat.lt_of_lt_of_le Nat.lt_log2_self (Nat.pow_le_pow_right (by omega) ?_)
    unfold totalExponent at hs
    omega
  · simp only [shiftToTargetExponent, shiftToExponent, targetExponent_binary64]
    omega

/-- Rounding shifts twice: the second shift takes back a carry of the first. -/
theorem roundWithAccuracy_cases (s : Sign) (m : Nat) (e : Int) (acc : Accuracy) :
    let first := shiftToTargetExponent .binary64 m e acc
    let last := shiftToTargetExponent .binary64 first.1.roundedMantissa first.2 .exact
    roundWithAccuracy .binary64 s m e acc = .zero s ∨
      ∃ hpos, roundWithAccuracy .binary64 s m e acc = .finite s last.1.mantissa last.2 hpos := by
  intro first last
  by_cases hzero : last.1.mantissa = 0
  · exact .inl (dif_pos hzero)
  · exact .inr ⟨Nat.pos_of_ne_zero hzero, dif_neg hzero⟩

/-- Rounding keeps the bound where it has room for the carry. -/
theorem confined_roundWithAccuracy_of_room {k : Int} {m : Nat} {e : Int} (s : Sign) (acc : Accuracy)
    (he : e ≤ k) (ht : totalExponent m e ≤ k + 53) (hk : -1074 ≤ k)
    (hroom : (shiftToTargetExponent .binary64 m e acc).2 = k →
      (shiftToTargetExponent .binary64 m e acc).1.mantissa + 1 < 2 ^ 53) :
    Confined k (roundWithAccuracy .binary64 s m e acc) := by
  obtain ⟨hfirst, hfirst'⟩ := shiftToTargetExponent_spec m e acc
  obtain ⟨hlast, hlast'⟩ := shiftToTargetExponent_spec
    (shiftToTargetExponent .binary64 m e acc).1.roundedMantissa
    (shiftToTargetExponent .binary64 m e acc).2 .exact
  have hrounded := roundedMantissa_le (shiftToTargetExponent .binary64 m e acc).1
  have hcarry : totalExponent (shiftToTargetExponent .binary64 m e acc).1.roundedMantissa
      (shiftToTargetExponent .binary64 m e acc).2 ≤ 53 + k := by
    by_cases htop : (shiftToTargetExponent .binary64 m e acc).2 = k
    · have hfits := totalExponent_le (e := k) (b := 53) (by omega)
        (Nat.lt_of_le_of_lt hrounded (hroom htop))
      rw [htop]
      exact hfits
    · have hfits := totalExponent_le (e := (shiftToTargetExponent .binary64 m e acc).2) (b := 54)
        (by omega) (show (shiftToTargetExponent .binary64 m e acc).1.roundedMantissa < 2 ^ 54 by
          omega)
      omega
  obtain h | ⟨hpos, h⟩ := roundWithAccuracy_cases s m e acc
  · rw [h]
    trivial
  · rw [h]
    exact ⟨hlast, by omega⟩

theorem confined_roundWithAccuracy {k : Int} {m : Nat} {e : Int} (s : Sign) (acc : Accuracy)
    (he : e ≤ k) (ht : totalExponent m e ≤ k + 53) (hk : -1074 ≤ k) :
    Confined (k + 1) (roundWithAccuracy .binary64 s m e acc) := by
  refine confined_roundWithAccuracy_of_room s acc (by omega) (by omega) (by omega) fun htop => ?_
  rw [(shiftToTargetExponent_spec m e acc).2] at htop
  omega

theorem confined_round {k : Int} {m : Nat} {e : Int} (s : Sign)
    (ht : totalExponent m e ≤ k + 53) (hk : -1074 ≤ k) :
    Confined (k + 1) (UnpackedFloat.round .binary64 s m e) := by
  unfold UnpackedFloat.round decreaseExponent
  simp only [targetExponent_binary64]
  generalize hs : (e - max (totalExponent m e - 53) (-1074)).toNat = n
  have hshift : totalExponent (m <<< n) (e - n) ≤ totalExponent m e := by
    by_cases hm : m = 0
    · simp only [hm, Nat.zero_shiftLeft, totalExponent]
      omega
    · have hlog : (m <<< n).log2 ≤ m.log2 + n := by
        have hpos : m <<< n ≠ 0 := by
          rw [Nat.shiftLeft_eq]
          exact Nat.mul_ne_zero hm (Nat.ne_of_gt (Nat.two_pow_pos n))
        have hlt : m <<< n < 2 ^ (m.log2 + 1 + n) := by
          rw [Nat.shiftLeft_eq, Nat.pow_add]
          exact Nat.mul_lt_mul_of_pos_right Nat.lt_log2_self (Nat.two_pow_pos n)
        have := (Nat.log2_lt hpos).2 hlt
        omega
      unfold totalExponent
      omega
  exact confined_roundWithAccuracy s .exact (by omega) (by omega) hk

theorem confined_normalize {k : Int} {n : Int} {b : Nat} {e : Int} (s : Sign) (hb : 0 < b)
    (hn : n.natAbs < 2 ^ b) (ht : b + e ≤ k + 53) (hk : -1074 ≤ k) :
    Confined (k + 1) (UnpackedFloat.normalize .binary64 n e s) := by
  have hround : ∀ (s : Sign) (m : Nat), m < 2 ^ b →
      Confined (k + 1) (UnpackedFloat.round .binary64 s m e) := by
    intro s m hm
    have := totalExponent_le (e := e) hb hm
    exact confined_round s (by omega) hk
  unfold UnpackedFloat.normalize
  split
  · exact hround _ _ (by omega)
  · trivial
  · exact hround _ _ (by omega)

/-! ## Operations -/

theorem confined_mul {j k : Int} {a b : UnpackedFloat} (ha : Confined j a) (hb : Confined k b)
    (hroom : -1127 ≤ j + k) : Confined (j + k + 54) (mul .binary64 a b) := by
  obtain ⟨s, rfl⟩ | ⟨s, m, e, hm, rfl, hm53, he⟩ := confined_cases ha
  · obtain ⟨s', rfl⟩ | ⟨s', m', e', hm', rfl, -, -⟩ := confined_cases hb <;> trivial
  · obtain ⟨s', rfl⟩ | ⟨s', m', e', hm', rfl, hm53', he'⟩ := confined_cases hb
    · trivial
    · have hproduct : m * m' < 2 ^ 106 := by
        calc m * m' < 2 ^ 53 * 2 ^ 53 := Nat.mul_lt_mul'' hm53 hm53'
          _ = 2 ^ 106 := by rw [← Nat.pow_add]
      have htotal := totalExponent_le (e := e + e') (by omega) hproduct
      have hround := confined_roundWithAccuracy (k := j + k + 53) (m := m * m') (e := e + e')
        (s * s') .exact (by omega) (by omega) (by omega)
      rwa [Int.add_assoc (j + k)] at hround

/-- A significand that is written with a smaller exponent takes as many more bits. -/
theorem shiftLeft_lt {m s b : Nat} (hm : m < 2 ^ 53) (hs : s ≤ b) : m <<< s < 2 ^ (53 + b) := by
  rw [Nat.shiftLeft_eq, Nat.pow_add]
  exact Nat.mul_lt_mul_of_lt_of_le hm (Nat.pow_le_pow_right (by omega) hs) (Nat.two_pow_pos b)

theorem natAbs_apply (s : Sign) (m : Nat) : (s.apply m : Int).natAbs = m := by
  cases s
  · exact Int.natAbs_neg m
  · rfl

/-- The significands of two numbers, written with their smaller exponent. -/
theorem natAbs_aligned_lt (s s' : Sign) {m m' : Nat} {e e' k : Int} (hm : m < 2 ^ 53)
    (hm' : m' < 2 ^ 53) (he : e ≤ k) (he' : e' ≤ k) :
    let x : Int := s.apply (m <<< (e - min e e').toNat)
    let x' : Int := s'.apply (m' <<< (e' - min e e').toNat)
    (x + x').natAbs < 2 ^ (54 + (k - min e e').toNat) ∧
      (x - x').natAbs < 2 ^ (54 + (k - min e e').toNat) := by
  intro x x'
  generalize hb : (k - min e e').toNat = b
  have hleft : x.natAbs < 2 ^ (53 + b) := by
    rw [natAbs_apply]
    exact shiftLeft_lt hm (by omega)
  have hright : x'.natAbs < 2 ^ (53 + b) := by
    rw [natAbs_apply]
    exact shiftLeft_lt hm' (by omega)
  have hdouble : 2 ^ (54 + b) = 2 ^ (53 + b) + 2 ^ (53 + b) := by
    rw [show 54 + b = (53 + b) + 1 by omega, Nat.pow_succ]
    omega
  omega

theorem confined_add {k : Int} {a b : UnpackedFloat} (ha : Confined k a) (hb : Confined k b)
    (hroom : -1075 ≤ k) : Confined (k + 2) (add .binary64 a b) := by
  obtain ⟨s, rfl⟩ | ⟨s, m, e, hm, rfl, hm53, he⟩ := confined_cases ha
  · obtain ⟨s', rfl⟩ | ⟨s', m', e', hm', rfl, hm53', he'⟩ := confined_cases hb
    · cases s <;> cases s' <;> trivial
    · exact ⟨hm53', by omega⟩
  · obtain ⟨s', rfl⟩ | ⟨s', m', e', hm', rfl, hm53', he'⟩ := confined_cases hb
    · exact ⟨hm53, by omega⟩
    · have hsum := (natAbs_aligned_lt s s' hm53 hm53' he he').1
      have hnormal := confined_normalize (k := k + 1) (e := min e e') .positive (by omega) hsum
        (by omega) (by omega)
      rwa [Int.add_assoc k] at hnormal

theorem confined_sub {k : Int} {a b : UnpackedFloat} (ha : Confined k a) (hb : Confined k b)
    (hroom : -1075 ≤ k) : Confined (k + 2) (sub .binary64 a b) := by
  obtain ⟨s, rfl⟩ | ⟨s, m, e, hm, rfl, hm53, he⟩ := confined_cases ha
  · obtain ⟨s', rfl⟩ | ⟨s', m', e', hm', rfl, hm53', he'⟩ := confined_cases hb
    · cases s <;> cases s' <;> trivial
    · exact ⟨hm53', by omega⟩
  · obtain ⟨s', rfl⟩ | ⟨s', m', e', hm', rfl, hm53', he'⟩ := confined_cases hb
    · exact ⟨hm53, by omega⟩
    · have hdifference := (natAbs_aligned_lt s s' hm53 hm53' he he').2
      have hnormal := confined_normalize (k := k + 1) (e := min e e') .positive (by omega)
        hdifference (by omega) (by omega)
      rwa [Int.add_assoc k] at hnormal

/-- A quotient by a normal number. -/
theorem confined_div {k : Int} {a : UnpackedFloat} (s' : Sign) {m' : Nat} {e' : Int}
    (hm' : 0 < m') (ha : Confined k a) (hnormal : 2 ^ 52 ≤ m') (hroom : -1022 ≤ k - e') :
    Confined (k - e' - 51) (div .binary64 a (.finite s' m' e' hm')) := by
  obtain ⟨s, rfl⟩ | ⟨s, m, e, hm, rfl, hm53, he⟩ := confined_cases ha
  · trivial
  · have htotal := totalExponent_le (e := e) (by omega) hm53
    have hlow : 52 + 1 + e' ≤ totalExponent m' e' := by
      have := (Nat.le_log2 (by omega)).2 hnormal
      unfold totalExponent
      omega
    dsimp only [div, divCore]
    rw [targetExponent_binary64]
    generalize ht : min (e - e') (max (totalExponent m e - totalExponent m' e' - 53) (-1074)) = t
    generalize hn : (e - e' - t).toNat = n
    have hquotient : m <<< n / m' < 2 ^ (n + 1) := by
      rw [Nat.div_lt_iff_lt_mul hm', Nat.shiftLeft_eq]
      calc m * 2 ^ n < 2 ^ 53 * 2 ^ n := Nat.mul_lt_mul_of_pos_right hm53 (Nat.two_pow_pos n)
        _ = 2 ^ (n + 1) * 2 ^ 52 := by rw [← Nat.pow_add, ← Nat.pow_add]; congr 1; omega
        _ ≤ 2 ^ (n + 1) * m' := Nat.mul_le_mul_left _ hnormal
    have hsize := totalExponent_le (e := t) (by omega) hquotient
    have hround := confined_roundWithAccuracy (k := k - e' - 52) (m := m <<< n / m') (e := t)
      (s / s') (accuracyOfFraction (m <<< n % m') m') (by omega) (by omega) (by omega)
    rwa [show k - e' - 52 + 1 = k - e' - 51 by omega] at hround

theorem confined_neg {k : Int} {a : UnpackedFloat} (h : Confined k a) : Confined k a.neg := by
  obtain ⟨s, rfl⟩ | ⟨s, m, e, hm, rfl, hm53, he⟩ := confined_cases h
  · trivial
  · exact ⟨hm53, he⟩

/-! ## Packing -/

theorem unpackSign_packComponents (s : Sign) (e : BitVec 11) (m : BitVec 52) :
    unpackSign (packComponents .binary64 s e m) = s.toBitVec := by
  have hlsb : (s.toBitVec ++ e ++ m).extractLsb' 63 1 = s.toBitVec := by
    rw [BitVec.extractLsb'_append_eq_of_le (by omega),
      BitVec.extractLsb'_append_eq_of_le (by omega), BitVec.extractLsb'_eq_self]
  exact hlsb

/-- What a sign, an exponent and a significand without its first bit unpack to. -/
inductive Unpacked (s : Sign) (e : BitVec 11) (m : BitVec 52) : UnpackedFloat → Prop
  | infinity (h : e = -1#11) : Unpacked s e m (.infinity s)
  | notANumber (h : e = -1#11) (hm : m ≠ 0#52) : Unpacked s e m .notANumber
  | zero (h : e = 0#11) (hm : m = 0#52) : Unpacked s e m (.zero s)
  | subnormal {n : Nat} {x : Int} (hn : n = m.toNat) (hx : x = -1074) (hpos : 0 < n)
      (h : e = 0#11) : Unpacked s e m (.finite s n x hpos)
  | normal {n : Nat} {x : Int} (h : e ≠ -1#11) (hn : n = (1#1 ++ m).toNat)
      (hx : x = e.toNat - 1075) (hpos : 0 < n) (hfirst : e ≠ 0#11) :
      Unpacked s e m (.finite s n x hpos)

theorem unpacked_unpack (b : BitVec Format.binary64.numBits) :
    Unpacked (Sign.ofBitVec (unpackSign b)) (unpackExponent b) (unpackMantissa b)
      (unpack .binary64 b) := by
  unfold unpack
  dsimp only
  by_cases hlast : @unpackExponent .binary64 b = -1#11
  · rw [if_pos hlast]
    split
    · exact .infinity hlast
    · exact .notANumber hlast ‹_›
  · rw [if_neg hlast]
    by_cases hzero : @unpackExponent .binary64 b = 0#11
    · rw [if_pos hzero]
      by_cases hm : @unpackMantissa .binary64 b = 0#52
      · rw [dif_pos hm]
        exact .zero hzero hm
      · rw [dif_neg hm]
        refine .subnormal rfl ?_ _ hzero
        rw [hzero]
        rfl
    · rw [if_neg hzero]
      exact .normal hlast rfl rfl _ hzero

theorem unpacked_packComponents (s : Sign) (e : BitVec 11) (m : BitVec 52) :
    Unpacked s e m (unpack .binary64 (packComponents .binary64 s e m)) := by
  have hparts := unpacked_unpack (packComponents .binary64 s e m)
  rw [unpackSign_packComponents, unpackExponent_packComponents,
    unpackMantissa_packComponents] at hparts
  cases s <;> exact hparts

theorem log2_eq_of_normal {m : Nat} (hlow : 2 ^ 52 ≤ m) (hhigh : m < 2 ^ 53) : m.log2 = 52 := by
  have hne : m ≠ 0 := by omega
  have hle : 52 ≤ m.log2 := (Nat.le_log2 hne).2 hlow
  have hlt : m.log2 < 53 := (Nat.log2_lt hne).2 hhigh
  omega

/-- A finite number is packed as infinity when it is too large, with its exponent when it is normal,
and without when it is not. -/
theorem pack_finite (s : Sign) {m : Nat} {e : Int} (hm : 0 < m) :
    pack .binary64 (.finite s m e hm) =
      if 2047 ≤ (e + 1075).toNat then packedInfinity .binary64 s
      else if m.log2 + 1 = 53 then
        packComponents .binary64 s (BitVec.ofNat 11 (e + 1075).toNat) (BitVec.ofNat 52 m)
      else packComponents .binary64 s 0#11 (BitVec.ofNat 52 m) := by
  have hbias : (e + (1023 : Nat) + (52 : Nat)).toNat = (e + 1075).toNat := by omega
  by_cases hlarge : 2047 ≤ (e + 1075).toNat
  · have hbiased : 2 ^ 11 ≤ (e + (1023 : Nat) + (52 : Nat)).toNat + 1 := by omega
    rw [if_pos hlarge]
    exact if_pos hbiased
  · have hbiased : ¬ 2 ^ 11 ≤ (e + (1023 : Nat) + (52 : Nat)).toNat + 1 := by omega
    rw [if_neg hlarge, ← hbias]
    exact if_neg hbiased

/-- The exponents of finite numbers are below the one that is kept for infinity. -/
theorem toNat_exponent {n : Nat} (h : n < 2047) : (BitVec.ofNat 11 n).toNat = n := by
  rw [BitVec.toNat_ofNat]
  omega

theorem exponent_ne_ones {n : Nat} (h : n < 2047) : BitVec.ofNat 11 n ≠ -1#11 := by
  intro hones
  have hvalue : n = 2047 := (toNat_exponent h).symm.trans (congrArg BitVec.toNat hones)
  omega

theorem exponent_ne_zero {n : Nat} (hpos : 0 < n) (h : n < 2047) : BitVec.ofNat 11 n ≠ 0#11 := by
  intro hzero
  have hvalue : n = 0 := (toNat_exponent h).symm.trans (congrArg BitVec.toNat hzero)
  omega

/-- Unpacking parts gives a confined number unless the exponent stands for infinity. -/
theorem confined_unpack {k : Int} {s : Sign} {e : BitVec 11} {m : BitVec 52} (hfinite : e ≠ -1#11)
    (he : (e.toNat : Int) - 1075 ≤ k) (hk : -1074 ≤ k) :
    Confined k (unpack .binary64 (packComponents .binary64 s e m)) := by
  have hparts := unpacked_packComponents s e m
  generalize unpack .binary64 (packComponents .binary64 s e m) = u at *
  cases hparts with
  | infinity hlast => exact absurd hlast hfinite
  | notANumber hlast => exact absurd hlast hfinite
  | zero => trivial
  | subnormal hn hx => exact ⟨Nat.lt_trans (hn ▸ m.isLt) (by decide), hx ▸ hk⟩
  | normal _ hn hx => exact ⟨hn ▸ (1#1 ++ m).isLt, hx ▸ he⟩

theorem confined_unpack_pack {k : Int} {u : UnpackedFloat} (h : Confined k u) (hk : k ≤ 971)
    (hk' : -1074 ≤ k) : Confined k (unpack .binary64 (pack .binary64 u)) := by
  obtain ⟨s, rfl⟩ | ⟨s, m, e, hm, rfl, hm53, he⟩ := confined_cases h
  · exact confined_unpack (by decide) (by simp; omega) hk'
  · have hsmall : (e + 1075).toNat < 2047 := by omega
    rw [pack_finite, if_neg (by omega)]
    split
    · refine confined_unpack (exponent_ne_ones hsmall) ?_ hk'
      rw [toNat_exponent hsmall]
      omega
    · exact confined_unpack (by decide) (by simp; omega) hk'

/-! ## Numbers -/

/-- Zero or a finite number, with an exponent up to `k`. -/
def Bounded (k : Int) (x : Float) : Prop := Confined k x.toModel.unpack

instance (k : Int) : DecidablePred (Bounded k) := fun x =>
  inferInstanceAs (Decidable (Confined k x.toModel.unpack))

theorem bounded_mul {j k : Int} {x y : Float} (hx : Bounded j x) (hy : Bounded k y)
    (hlow : -1127 ≤ j + k) (hhigh : j + k + 54 ≤ 971) : Bounded (j + k + 54) (x * y) :=
  confined_unpack_pack (confined_mul hx hy hlow) hhigh (by omega)

theorem bounded_add {k : Int} {x y : Float} (hx : Bounded k x) (hy : Bounded k y)
    (hlow : -1075 ≤ k) (hhigh : k + 2 ≤ 971) : Bounded (k + 2) (x + y) :=
  confined_unpack_pack (confined_add hx hy hlow) hhigh (by omega)

theorem bounded_sub {k : Int} {x y : Float} (hx : Bounded k x) (hy : Bounded k y)
    (hlow : -1075 ≤ k) (hhigh : k + 2 ≤ 971) : Bounded (k + 2) (x - y) :=
  confined_unpack_pack (confined_sub hx hy hlow) hhigh (by omega)

theorem bounded_neg {k : Int} {x : Float} (hx : Bounded k x) (hlow : -1074 ≤ k)
    (hhigh : k ≤ 971) : Bounded k (-x) :=
  confined_unpack_pack (confined_neg hx) hhigh hlow

theorem bounded_div {k e : Int} {x y : Float} {s : Sign} {m : Nat} {hm : 0 < m}
    (hy : y.toModel.unpack = .finite s m e hm) (hnormal : 2 ^ 52 ≤ m) (hx : Bounded k x)
    (hlow : -1022 ≤ k - e) (hhigh : k - e - 51 ≤ 971) : Bounded (k - e - 51) (x / y) := by
  have hdiv := confined_div s hm hx hnormal hlow
  rw [← hy] at hdiv
  exact confined_unpack_pack hdiv hhigh (by omega)

theorem significand_lt (x : Float) {s : Sign} {m : Nat} {e : Int} {hm : 0 < m}
    (h : x.toModel.unpack = .finite s m e hm) : m < 2 ^ 53 := by
  have hparts : Unpacked _ _ _ x.toModel.unpack := unpacked_unpack _
  rw [h] at hparts
  cases hparts with
  | subnormal hn _ => exact Nat.lt_trans (hn ▸ BitVec.isLt _) (by decide)
  | normal _ hn _ => exact hn ▸ BitVec.isLt _

theorem toNat_unpackExponent (x : Float) :
    (@unpackExponent .binary64 x.toModel.toBits.toBitVec).toNat =
      x.toBits.toNat / 2 ^ 52 % 2 ^ 11 := by
  show (x.toModel.toBits.toBitVec.extractLsb' 52 11).toNat = _
  rw [BitVec.extractLsb'_toNat, Nat.shiftRight_eq_div_pow]
  rfl

theorem isFinite_of_bounded {k : Int} {x : Float} (h : Bounded k x) :
    Scalar.isFinite x = true := by
  have hexponent : x.toBits.toNat / Nat.pow 2 52 % Nat.pow 2 11 ≠ 2047 := by
    intro hfull
    have hones : @unpackExponent .binary64 x.toModel.toBits.toBitVec = -1#11 := by
      apply BitVec.eq_of_toNat_eq
      rw [toNat_unpackExponent]
      exact hfull
    unfold Bounded Float.Model.unpack unpack at h
    dsimp only at h
    rw [if_pos hones] at h
    split at h <;> exact h.elim
  show (binaryValue? x).isSome = true
  unfold binaryValue? binaryParts?
  dsimp only
  rw [if_neg hexponent]
  split <;> rfl

end Storyboard.Binary
