import Mathlib.Algebra.Order.Field.Power
import Mathlib.Algebra.Order.Ring.Rat
import Mathlib.Tactic.Positivity
import Mathlib.Tactic.Ring
import Storyboard.Proofs.Binary.Size
/-!
# Exact values of binary numbers

A finite number is its significand times a power of two.  Significands have 53 bits unless the
exponent is the least one, so exponents decide before significands do: finite numbers are ordered
as their exact values are.
-/

namespace Storyboard.Binary

open Float.Model (UnpackedFloat Format totalExponent)
open Float.Model.UnpackedFloat

/-- The exact value of an unpacked number; infinities and the undefined number have none. -/
def value? : UnpackedFloat → Option Rat
  | .zero _ => some 0
  | .finite .positive m e _ => some (m * 2 ^ e)
  | .finite .negative m e _ => some (-(m * 2 ^ e))
  | _ => none

/-! ## Reading the bits -/

theorem scaled_two (negative : Bool) (m : Nat) (e : Int) :
    scaled negative 2 m e = if negative then -((m : Rat) * 2 ^ e) else (m : Rat) * 2 ^ e := by
  have hsize : (if 0 ≤ e then ((m * Nat.pow 2 e.toNat : Nat) : Rat)
      else mkRat m (Nat.pow 2 (-e).toNat)) = (m : Rat) * 2 ^ e := by
    split
    · rename_i he
      obtain ⟨n, rfl⟩ := Int.eq_ofNat_of_zero_le he
      simp
    · rename_i he
      obtain ⟨n, hn⟩ := Int.eq_ofNat_of_zero_le (show 0 ≤ -e by omega)
      obtain rfl : e = -(n : Int) := by omega
      simp [Rat.mkRat_eq_div, div_eq_mul_inv]
  unfold scaled
  dsimp only
  rw [hsize]

theorem toNat_unpackMantissa (x : Float) :
    (@unpackMantissa .binary64 x.toModel.toBits.toBitVec).toNat = x.toBits.toNat % 2 ^ 52 := by
  show (x.toModel.toBits.toBitVec.extractLsb' 0 52).toNat = _
  rw [BitVec.extractLsb'_toNat, Nat.shiftRight_zero]
  rfl

theorem unpackSign_eq_zero_iff (x : Float) :
    @unpackSign .binary64 x.toModel.toBits.toBitVec = 0#1 ↔ x.toBits.toNat / 2 ^ 63 ≠ 1 := by
  have hbit : (@unpackSign .binary64 x.toModel.toBits.toBitVec).toNat =
      x.toBits.toNat / 2 ^ 63 % 2 ^ 1 := by
    show (x.toModel.toBits.toBitVec.extractLsb' 63 1).toNat = _
    rw [BitVec.extractLsb'_toNat, Nat.shiftRight_eq_div_pow]
    rfl
  have hbound : x.toBits.toNat < 2 ^ 64 := x.toBits.toBitVec.isLt
  have hzero : @unpackSign .binary64 x.toModel.toBits.toBitVec = 0#1 ↔
      (@unpackSign .binary64 x.toModel.toBits.toBitVec).toNat = 0 := by
    constructor
    · intro h
      rw [h]
      rfl
    · intro h
      apply BitVec.eq_of_toNat_eq
      rw [h]
      rfl
  rw [hzero, hbit]
  omega

/-- A normal significand has its first bit set. -/
theorem toNat_one_append (m : BitVec 52) : (1#1 ++ m).toNat = 2 ^ 52 + m.toNat := by
  rw [BitVec.toNat_append, ← Nat.shiftLeft_add_eq_or_of_lt m.isLt]
  rfl

theorem value?_finite {negative : Bool} {s : Sign} {m : Nat} {e : Int} (hm : 0 < m)
    (hs : s = if negative then .negative else .positive) :
    value? (.finite s m e hm) = some (scaled negative 2 m e) := by
  rw [scaled_two, hs]
  cases negative <;> rfl

/-- The bits of a number stand for the exact value of what they unpack to. -/
theorem toRat?_eq_value? (x : Float) : Scalar.toRat? x = value? x.toModel.unpack := by
  have hlast : @unpackExponent .binary64 x.toModel.toBits.toBitVec = -1#11 ↔
      x.toBits.toNat / 2 ^ 52 % 2 ^ 11 = 2047 := by
    rw [← toNat_unpackExponent, ← BitVec.toNat_inj]
    rfl
  have hfirst : @unpackExponent .binary64 x.toModel.toBits.toBitVec = 0#11 ↔
      x.toBits.toNat / 2 ^ 52 % 2 ^ 11 = 0 := by
    rw [← toNat_unpackExponent, ← BitVec.toNat_inj]
    rfl
  have hsign : Sign.ofBitVec (@unpackSign .binary64 x.toModel.toBits.toBitVec) =
      if x.toBits.toNat / 2 ^ 63 == 1 then .negative else .positive := by
    unfold Sign.ofBitVec
    simp only [unpackSign_eq_zero_iff, beq_iff_eq, ite_not]
  have hparts := unpacked_unpack x.toModel.toBits.toBitVec
  show binaryValue? x = value? (unpack .binary64 x.toModel.toBits.toBitVec)
  unfold binaryValue? binaryParts?
  dsimp only [Nat.pow_eq]
  generalize unpack .binary64 x.toModel.toBits.toBitVec = u at *
  cases hparts with
  | infinity h =>
    rw [if_pos (hlast.1 h)]
    rfl
  | notANumber h =>
    rw [if_pos (hlast.1 h)]
    rfl
  | zero h hm =>
    have hfraction : x.toBits.toNat % 2 ^ 52 = 0 := by
      rw [← toNat_unpackMantissa, hm]
      rfl
    rw [hfirst.1 h, if_neg (by decide), if_pos rfl, hfraction, Option.map_some, scaled_two]
    show _ = some 0
    simp
  | subnormal hn hx hpos h =>
    rw [hfirst.1 h, if_neg (by decide), if_pos rfl, value?_finite _ hsign, hn, hx,
      toNat_unpackMantissa]
    rfl
  | normal h hn hx hpos h' =>
    rw [if_neg (mt hlast.2 h), if_neg (mt hfirst.2 h'), value?_finite _ hsign, hn, hx,
      toNat_one_append, toNat_unpackMantissa, toNat_unpackExponent]
    rfl

theorem toRat?_zero : Scalar.toRat? (0.0 : Float) = some 0 := by
  rw [toRat?_eq_value?]
  rfl

theorem toRat?_one : Scalar.toRat? (1.0 : Float) = some 1 := by
  rw [toRat?_eq_value?]
  show some ((2 ^ 52 : Nat) * (2 : Rat) ^ (-52 : Int)) = some 1
  norm_num

/-- The number nearest to a hundredth is positive and below one. -/
theorem toRat?_hundredth :
    Scalar.toRat? (0.01 : Float) = some ((5764607523034235 : Nat) * (2 : Rat) ^ (-59 : Int)) := by
  rw [toRat?_eq_value?]
  rfl

/-! ## Order -/

/-- The significand has 53 bits unless the exponent is the least one. -/
def Canonical : UnpackedFloat → Prop
  | .finite _ m e _ => m < 2 ^ 53 ∧ -1074 ≤ e ∧ (e = -1074 ∨ 2 ^ 52 ≤ m)
  | _ => True

theorem canonical_unpack (x : Float) : Canonical x.toModel.unpack := by
  have hparts : Unpacked _ _ _ x.toModel.unpack := unpacked_unpack _
  generalize x.toModel.unpack = u at *
  cases hparts with
  | infinity => trivial
  | notANumber => trivial
  | zero => trivial
  | subnormal hn hx _ _ =>
    subst hx
    exact ⟨Nat.lt_trans (hn ▸ BitVec.isLt _) (by decide), Int.le_refl _, .inl rfl⟩
  | normal h hn hx _ hfirst =>
    have hm := BitVec.isLt (@unpackMantissa .binary64 x.toModel.toBits.toBitVec)
    have he : (@unpackExponent .binary64 x.toModel.toBits.toBitVec).toNat ≠ 0 := fun hzero =>
      hfirst (BitVec.eq_of_toNat_eq hzero)
    rw [toNat_one_append] at hn
    exact ⟨by omega, by omega, .inr (by omega)⟩

theorem size_lt_size {m m' : Nat} {e e' : Int} (hm : m < 2 ^ 53) (hm' : 2 ^ 52 ≤ m')
    (he : e < e') : (m : Rat) * 2 ^ e < m' * 2 ^ e' := by
  have hpos : (0 : Rat) < 2 ^ e := zpow_pos (by norm_num) e
  have hstep : (2 : Rat) ^ (e + 1) ≤ 2 ^ e' := zpow_le_zpow_right₀ (by norm_num) (by omega)
  have hlow : (2 ^ 52 : Rat) ≤ m' := by exact_mod_cast hm'
  have hhigh : (m : Rat) < 2 ^ 53 := by exact_mod_cast hm
  calc (m : Rat) * 2 ^ e < 2 ^ 53 * 2 ^ e := by gcongr
    _ = 2 ^ 52 * 2 ^ (e + 1) := by rw [zpow_add_one₀ (by norm_num)]; ring
    _ ≤ m' * 2 ^ e' := by gcongr

/-- Canonical numbers without their signs are ordered by exponent, then by significand. -/
theorem size_lt_size_iff {m m' : Nat} {e e' : Int} (hm : m < 2 ^ 53 ∧ -1074 ≤ e ∧
    (e = -1074 ∨ 2 ^ 52 ≤ m)) (hm' : m' < 2 ^ 53 ∧ -1074 ≤ e' ∧ (e' = -1074 ∨ 2 ^ 52 ≤ m')) :
    (m : Rat) * 2 ^ e < m' * 2 ^ e' ↔ e < e' ∨ e = e' ∧ m < m' := by
  rcases lt_trichotomy e e' with hlt | rfl | hgt
  · exact iff_of_true (size_lt_size hm.1 (by omega) hlt) (.inl hlt)
  · have hpos : (0 : Rat) < 2 ^ e := zpow_pos (by norm_num) e
    rw [mul_lt_mul_iff_left₀ hpos, Nat.cast_lt]
    omega
  · exact iff_of_false (lt_asymm (size_lt_size hm'.1 (by omega) hgt)) (by omega)

/-- A rank and an exact value that belong to one finite number. -/
inductive Placed : Int × Int × Int → Rat → Prop
  | zero : Placed (0, 0, 0) 0
  | positive {m : Nat} {e : Int} (hpos : 0 < m)
      (hm : m < 2 ^ 53 ∧ -1074 ≤ e ∧ (e = -1074 ∨ 2 ^ 52 ≤ m)) : Placed (1, e, m) (m * 2 ^ e)
  | negative {m : Nat} {e : Int} (hpos : 0 < m)
      (hm : m < 2 ^ 53 ∧ -1074 ≤ e ∧ (e = -1074 ∨ 2 ^ 52 ≤ m)) :
      Placed (-1, -e, -m) (-(m * 2 ^ e))

theorem placed_of_value? {u : UnpackedFloat} {v : Rat} (hu : Canonical u)
    (h : value? u = some v) : ∃ p, rank? u = some p ∧ Placed p v := by
  rcases u with _ | _ | _ | ⟨_ | _, m, e, hm⟩ <;> cases h
  · exact ⟨_, rfl, .zero⟩
  · exact ⟨_, rfl, .negative hm hu⟩
  · exact ⟨_, rfl, .positive hm hu⟩

theorem before_iff {p q : Int × Int × Int} {v w : Rat} (hp : Placed p v) (hq : Placed q w) :
    Before p q ↔ v < w := by
  have hsize : ∀ {m : Nat} (e : Int), 0 < m → (0 : Rat) < m * 2 ^ e := fun e hm => by positivity
  cases hp with
  | zero =>
    cases hq with
    | zero => simp [Before]
    | positive hm' _ => exact iff_of_true (by simp [Before]) (hsize _ hm')
    | negative hm' _ =>
      exact iff_of_false (by simp [Before]) (lt_asymm (neg_neg_of_pos (hsize _ hm')))
  | @positive m e hm hc =>
    have hv := hsize e hm
    cases hq with
    | zero => exact iff_of_false (by simp [Before]) (lt_asymm hv)
    | positive _ hc' =>
      rw [size_lt_size_iff hc hc']
      simp [Before]
    | @negative m' e' hm' _ =>
      have hw := neg_neg_of_pos (hsize e' hm')
      exact iff_of_false (by simp [Before]) (lt_asymm (hw.trans hv))
  | @negative m e hm hc =>
    have hv := neg_neg_of_pos (hsize e hm)
    cases hq with
    | zero => exact iff_of_true (by simp [Before]) hv
    | positive hm' _ => exact iff_of_true (by simp [Before]) (hv.trans (hsize _ hm'))
    | negative _ hc' =>
      rw [neg_lt_neg_iff, size_lt_size_iff hc' hc]
      simp only [Before, true_and]
      omega

theorem placed {x : Float} {p : Rat} (h : Scalar.toRat? x = some p) :
    ∃ r, rank? x.toModel.unpack = some r ∧ Placed r p := by
  rw [toRat?_eq_value?] at h
  exact placed_of_value? (canonical_unpack x) h

/-- Finite numbers are ordered as their exact values are. -/
theorem lt_iff_lt {x y : Float} {p q : Rat} (hx : Scalar.toRat? x = some p)
    (hy : Scalar.toRat? y = some q) : x < y ↔ p < q := by
  obtain ⟨r, hr, hp⟩ := placed hx
  obtain ⟨s, hs, hq⟩ := placed hy
  rw [lt_iff, ← before_iff hp hq]
  simp [hr, hs]

theorem compare_eq_none_iff {a b : UnpackedFloat} :
    a.compare b = none ↔ rank? a = none ∨ rank? b = none := by
  rcases a with (_ | _) | _ | _ | ⟨_ | _, m, e, hm⟩ <;>
    rcases b with (_ | _) | _ | _ | ⟨_ | _, m', e', hm'⟩ <;>
    dsimp only [UnpackedFloat.compare, rank?] <;> simp

/-- Numbers that can be compared are ordered one way or the other. -/
theorem le_iff_not_lt {x y : Float} (hx : Scalar.isUndefined x = false)
    (hy : Scalar.isUndefined y = false) : x ≤ y ↔ ¬ y < x := by
  obtain ⟨p, hp⟩ := isUndefined_eq_false_iff.1 hx
  obtain ⟨q, hq⟩ := isUndefined_eq_false_iff.1 hy
  have hle : x ≤ y ↔ (x.toModel.unpack.compare y.toModel.unpack).any (·.isLE) = true :=
    decide_eq_true_iff
  have hgt : y < x ↔ x.toModel.unpack.compare y.toModel.unpack = some .gt := by
    rw [lt_iff, compare_eq_gt_iff]
    simp [hp, hq]
  rw [hle, hgt]
  cases hcompare : x.toModel.unpack.compare y.toModel.unpack with
  | none => simp [compare_eq_none_iff, hp, hq] at hcompare
  | some o => cases o <;> simp

theorem le_iff_le {x y : Float} {p q : Rat} (hx : Scalar.toRat? x = some p)
    (hy : Scalar.toRat? y = some q) : x ≤ y ↔ p ≤ q := by
  obtain ⟨r, hr, -⟩ := placed hx
  obtain ⟨s, hs, -⟩ := placed hy
  rw [le_iff_not_lt (isUndefined_eq_false_iff.2 ⟨r, hr⟩) (isUndefined_eq_false_iff.2 ⟨s, hs⟩),
    lt_iff_lt hy hx, not_lt]

theorem isUndefined_of_isFinite {x : Float} (h : Scalar.isFinite x = true) :
    Scalar.isUndefined x = false := by
  obtain ⟨p, hp⟩ := Option.isSome_iff_exists.1 h
  have hle : x ≤ x := (le_iff_le hp hp).2 le_rfl
  simp [Scalar.isUndefined, hle]

/-- What lies between two numbers is finite. -/
theorem isFinite_of_between {x low high : Float} (hlow : low < x) (hhigh : x < high) :
    Scalar.isFinite x = true := by
  obtain ⟨p, q, hp, hq, hpq⟩ := lt_iff.1 hlow
  obtain ⟨q', r, hq', hr, hqr⟩ := lt_iff.1 hhigh
  rw [Scalar.isFinite, toRat?_eq_value?]
  have hends : ∀ {u : UnpackedFloat} {a}, rank? u = some a →
      ¬ Before a (-2, 0, 0) ∧ ¬ Before (2, 0, 0) a := by
    intro u a ha
    rcases u with (_ | _) | _ | _ | ⟨_ | _, m, e, hm⟩ <;> cases ha <;> simp [Before]
  rcases hx : x.toModel.unpack with (_ | _) | _ | _ | ⟨_ | _, m, e, hm⟩ <;> rw [hx] at hq hq' <;>
    cases hq <;> cases hq'
  · exact absurd hpq (hends hp).1
  · exact absurd hqr (hends hr).2
  all_goals rfl

theorem isFinite_clamp {x low high : Float} (hlow : Scalar.isFinite low = true)
    (hhigh : Scalar.isFinite high = true) : Scalar.isFinite (Scalar.clamp x low high) = true := by
  by_cases hx : x < high
  · rw [Scalar.clamp, Scalar.min, if_pos hx, Scalar.max]
    split
    · exact isFinite_of_between ‹low < x› hx
    · exact hlow
  · rw [Scalar.clamp, Scalar.min, if_neg hx, Scalar.max]
    split
    · exact hhigh
    · exact hlow

end Storyboard.Binary
