import Storyboard.Proofs.Binary.Portion
/-!
# Opposite numbers

A finite number is packed as it was unpacked, so that changing its sign is exact.
-/

namespace Storyboard.Binary

open Float.Model (UnpackedFloat Format)
open Float.Model.UnpackedFloat

/-- A normal number keeps its significand, whose first bit is not packed. -/
theorem unpack_packComponents_normal {s : Sign} {m : Nat} {e : Int} (hm : 0 < m)
    (hlow : 2 ^ 52 ≤ m) (hhigh : m < 2 ^ 53) (hfirst : -1074 ≤ e) (hlast : e ≤ 971) :
    unpack .binary64 (packComponents .binary64 s (BitVec.ofNat 11 (e + 1075).toNat)
      (BitVec.ofNat 52 m)) = .finite s m e hm := by
  have hsmall : (e + 1075).toNat < 2047 := by omega
  have hmantissa : (1#1 ++ BitVec.ofNat 52 m).toNat = m := by
    rw [toNat_one_append, BitVec.toNat_ofNat]
    omega
  have hparts := unpacked_packComponents s (BitVec.ofNat 11 (e + 1075).toNat) (BitVec.ofNat 52 m)
  generalize unpack .binary64 (packComponents .binary64 s (BitVec.ofNat 11 (e + 1075).toNat)
    (BitVec.ofNat 52 m)) = u at *
  -- Exponents of zeros only and of ones only are kept for other kinds of numbers.
  have hnonzero := exponent_ne_zero (by omega) hsmall
  have hfinite := exponent_ne_ones hsmall
  cases hparts with
  | infinity h => exact absurd h hfinite
  | notANumber h => exact absurd h hfinite
  | zero h => exact absurd h hnonzero
  | subnormal _ _ _ h => exact absurd h hnonzero
  | @normal n x _ hn hx =>
    obtain rfl : n = m := hn.trans hmantissa
    obtain rfl : x = e := by
      rw [hx, toNat_exponent hsmall]
      omega
    rfl

/-- A number below the normal ones keeps its significand. -/
theorem unpack_packComponents_subnormal {s : Sign} {m : Nat} (hm : 0 < m) (hhigh : m < 2 ^ 52) :
    unpack .binary64 (packComponents .binary64 s 0#11 (BitVec.ofNat 52 m)) =
      .finite s m (-1074) hm := by
  have hmantissa : (BitVec.ofNat 52 m).toNat = m := by
    rw [BitVec.toNat_ofNat]
    omega
  have hparts := unpacked_packComponents s 0#11 (BitVec.ofNat 52 m)
  generalize unpack .binary64 (packComponents .binary64 s 0#11 (BitVec.ofNat 52 m)) = u at *
  cases hparts with
  | infinity h => exact absurd h (by decide)
  | notANumber h => exact absurd h (by decide)
  | zero _ h =>
    rw [h] at hmantissa
    simp at hmantissa
    omega
  | @subnormal n _ hn hx =>
    obtain rfl : n = m := hn.trans hmantissa
    subst hx
    rfl
  | normal _ _ _ _ h => exact absurd rfl h

theorem unpack_pack {u : UnpackedFloat} (h : Canonical u) (hconfined : Confined 971 u) :
    unpack .binary64 (pack .binary64 u) = u := by
  obtain ⟨s, rfl⟩ | ⟨s, m, e, hm, rfl, hm53, he⟩ := confined_cases hconfined
  · cases s <;> rfl
  · obtain ⟨-, hfirst, hsmall⟩ := h
    rw [pack_finite, if_neg (by omega)]
    by_cases hnormal : 2 ^ 52 ≤ m
    · rw [if_pos (by rw [log2_eq_of_normal hnormal hm53])]
      exact unpack_packComponents_normal hm hnormal hm53 hfirst he
    · have hlog : m.log2 < 52 := (Nat.log2_lt hm.ne').2 (by omega)
      obtain rfl : e = -1074 := hsmall.resolve_right hnormal
      rw [if_neg (by omega)]
      exact unpack_packComponents_subnormal hm (by omega)

theorem value?_neg {u : UnpackedFloat} {q : Rat} (h : value? u = some q) :
    value? u.neg = some (-q) := by
  rcases u with _ | _ | _ | ⟨_ | _, m, e, hm⟩ <;> cases h
  · exact congrArg some neg_zero.symm
  · exact congrArg some (neg_neg _).symm
  · rfl

/-- The opposite of a finite number has the opposite value. -/
theorem toRat?_neg {x : Float} {q : Rat} (h : Scalar.toRat? x = some q) :
    Scalar.toRat? (-x) = some (-q) := by
  have hcanonical : Canonical x.toModel.unpack.neg := by
    have hx := canonical_unpack x
    generalize x.toModel.unpack = u at *
    cases u <;> exact hx
  have hconfined : Confined 971 x.toModel.unpack.neg :=
    confined_neg (bounded_of_isFinite (Option.isSome_iff_exists.2 ⟨q, h⟩))
  have hunpack : (-x).toModel.unpack = x.toModel.unpack.neg := unpack_pack hcanonical hconfined
  rw [toRat?_eq_value?] at h ⊢
  rw [hunpack, value?_neg h]

end Storyboard.Binary
