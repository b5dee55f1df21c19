import Storyboard.Proofs.Binary.Product
import Storyboard.Proofs.Binary.Tame
/-!
# Small whole numbers in binary

A whole number that fits into the significand is exact in binary64: it is shifted to a full
significand and nothing is rounded off.  So small whole numbers are ordered as they were.
-/

namespace Storyboard.Binary

open Float.Model (UnpackedFloat Format totalExponent)
open Float.Model.UnpackedFloat

variable {n : Nat}

/-- Shifting by what is missing fills the significand. -/
theorem full_mul_two_pow (hpos : 0 < n) (hn : n < 2 ^ 53) :
    2 ^ 52 ≤ n * 2 ^ (52 - n.log2) ∧ n * 2 ^ (52 - n.log2) < 2 ^ 53 := by
  have hlog : n.log2 < 53 := (Nat.log2_lt hpos.ne').2 hn
  constructor
  · calc 2 ^ 52 = 2 ^ n.log2 * 2 ^ (52 - n.log2) := by
          rw [← Nat.pow_add]
          congr 1
          omega
      _ ≤ n * 2 ^ (52 - n.log2) := Nat.mul_le_mul_right _ (Nat.log2_self_le hpos.ne')
  · calc n * 2 ^ (52 - n.log2) < 2 ^ (n.log2 + 1) * 2 ^ (52 - n.log2) :=
          Nat.mul_lt_mul_of_pos_right Nat.lt_log2_self (Nat.two_pow_pos _)
      _ = 2 ^ 53 := by
          rw [← Nat.pow_add]
          congr 1
          omega

/-- A number that fits is shifted to a full significand, and nothing is rounded off. -/
theorem normalize_of_fits (hpos : 0 < n) (hn : n < 2 ^ 53) : ∃ s : Nat, ∃ hm,
    UnpackedFloat.normalize .binary64 n 0 .positive = .finite .positive (n * 2 ^ s) (-s) hm ∧
      2 ^ 52 ≤ n * 2 ^ s ∧ n * 2 ^ s < 2 ^ 53 ∧ s ≤ 52 := by
  rw [normalize_of_pos hpos]
  unfold UnpackedFloat.round decreaseExponent
  rw [targetExponent_binary64]
  dsimp only
  generalize hs : (0 - max (totalExponent n 0 - 53) (-1074)).toNat = s
  have hs' : s = 52 - n.log2 := by
    have hlog : n.log2 < 53 := (Nat.log2_lt hpos.ne').2 hn
    unfold totalExponent at hs
    omega
  obtain ⟨hlow, hhigh⟩ : 2 ^ 52 ≤ n * 2 ^ s ∧ n * 2 ^ s < 2 ^ 53 :=
    hs' ▸ full_mul_two_pow hpos hn
  have hm : 0 < n * 2 ^ s := Nat.lt_of_lt_of_le (Nat.two_pow_pos 52) hlow
  have hround := roundWithAccuracy_of_fits (r := n * 2 ^ s)
    (shiftToTargetExponent_of_fits (e := -(s : Int)) hhigh (by omega)) rfl hhigh (by omega)
  rw [dif_neg hm.ne'] at hround
  rw [Nat.shiftLeft_eq, Int.zero_sub]
  exact ⟨s, hm, hround, hlow, hhigh, by omega⟩

theorem toRat?_toFloat (hpos : 0 < n) (hn : n < 2 ^ 53) :
    Scalar.toRat? n.toUInt64.toFloat = some (n : Rat) := by
  have hword : n.toUInt64.toNat = n := by
    rw [Nat.toUInt64, UInt64.toNat_ofNat']
    omega
  obtain ⟨s, hm, hnormal, hlow, hhigh, hs⟩ := normalize_of_fits hpos hn
  have hunpack : n.toUInt64.toFloat.toModel.unpack =
      unpack .binary64 (pack .binary64
        (UnpackedFloat.normalize .binary64 n.toUInt64.toNat 0 .positive)) :=
    rfl
  have hcanonical : Canonical (.finite .positive (n * 2 ^ s) (-s) hm) :=
    ⟨hhigh, by omega, .inr hlow⟩
  have hconfined : Confined 971 (.finite .positive (n * 2 ^ s) (-s) hm) := ⟨hhigh, by omega⟩
  rw [toRat?_eq_value?, hunpack, hword, hnormal, unpack_pack hcanonical hconfined]
  show some (((n * 2 ^ s : Nat) : Rat) * 2 ^ (-s : Int)) = some (n : Rat)
  rw [zpow_neg, zpow_natCast]
  push_cast
  rw [mul_inv_cancel_right₀ (by positivity)]

/-- A factor of one leaves a number as it is. -/
theorem toRat?_mul_one {x : Float} {p : Rat} (hx : Scalar.toRat? x = some p) (hp : 0 < p)
    (hfinite : Scalar.isFinite (x * 1.0) = true) : Scalar.toRat? (x * 1.0) = some p := by
  obtain ⟨q, hq⟩ := Option.isSome_iff_exists.1 hfinite
  have hlow := not_mul_lt_self hx toRat?_one hp le_rfl
  have hhigh := not_lt_mul_self hx toRat?_one hp one_pos le_rfl
  rw [lt_iff_lt hq hx, not_lt] at hlow
  rw [lt_iff_lt hx hq, not_lt] at hhigh
  rw [hq, le_antisymm hhigh hlow]

/-- A small whole number is exact. -/
theorem toRat?_ofNat (hpos : 0 < n) (hn : n < 2 ^ 53) :
    Scalar.toRat? (Scalar.ofNat n : Float) = some (n : Rat) := by
  -- A whole number is read as a decimal one without a fraction: times one.
  have hproduct : (Scalar.ofNat n : Float) = n.toUInt64.toFloat * 1.0 := by
    show Float.ofScientific n false 0 = _
    unfold Float.ofScientific
    rw [dif_pos ⟨hn, Nat.zero_le 22⟩]
    rfl
  have hfinite := isFinite_of_bounded (bounded_ofNat hn)
  rw [hproduct] at hfinite ⊢
  exact toRat?_mul_one (toRat?_toFloat hpos hn) (Nat.cast_pos.2 hpos) hfinite

end Storyboard.Binary
