import Storyboard.Proofs.Binary.Exact
/-!
# Portions of binary numbers

A product with a number below one is no longer than the other factor: the significands leave no
room for a carry of the rounding.  So every portion of a finite number is finite.
-/

namespace Storyboard.Binary

open Float.Model (UnpackedFloat totalExponent)
open Float.Model.UnpackedFloat

theorem confined_mul_portion {k : Int} {a b : UnpackedFloat} (ha : Confined k a)
    (hb : Confined (-53) b) (hk : -1074 ≤ k) : Confined k (mul .binary64 a b) := by
  obtain ⟨s, rfl⟩ | ⟨s, m, e, hm, rfl, hm53, he⟩ := confined_cases ha
  · obtain ⟨s', rfl⟩ | ⟨s', m', e', hm', rfl, -, -⟩ := confined_cases hb <;> trivial
  · obtain ⟨s', rfl⟩ | ⟨s', m', e', hm', rfl, hm53', he'⟩ := confined_cases hb
    · trivial
    · have hproduct : m * m' < 2 ^ 106 := by
        calc m * m' < 2 ^ 53 * 2 ^ 53 := Nat.mul_lt_mul'' hm53 hm53'
          _ = 2 ^ 106 := by rw [← Nat.pow_add]
      have htotal := totalExponent_le (e := e + e') (by omega) hproduct
      refine confined_roundWithAccuracy_of_room (s * s') .exact (by omega) (by omega) hk
        fun htop => ?_
      -- At the top exponent the product lost at least as many bits as the first factor has.
      rw [(shiftToTargetExponent_spec _ _ _).2] at htop
      rw [mantissa_shiftToTargetExponent]
      generalize hn : (max (totalExponent (m * m') (e + e') - 53) (-1074) - (e + e')).toNat = n
      have hlong : m < 2 ^ n := Nat.lt_of_lt_of_le hm53 (Nat.pow_le_pow_right (by omega) (by omega))
      have hlost : m * m' / 2 ^ n < m' := by
        rw [Nat.div_lt_iff_lt_mul (Nat.two_pow_pos n), Nat.mul_comm m' (2 ^ n)]
        exact Nat.mul_lt_mul_of_pos_right hlong hm'
      omega

theorem bounded_portion {k : Int} {x c : Float} (hx : Bounded k x) (hc : Bounded (-53) c)
    (hlow : -1074 ≤ k) (hhigh : k ≤ 971) : Bounded k (x * c) :=
  confined_unpack_pack (confined_mul_portion hx hc hlow) hhigh hlow

theorem bounded_of_isFinite {x : Float} (h : Scalar.isFinite x = true) : Bounded 971 x := by
  obtain ⟨q, hq⟩ := Option.isSome_iff_exists.1 h
  rw [toRat?_eq_value?] at hq
  have hparts : Unpacked _ _ _ x.toModel.unpack := unpacked_unpack _
  unfold Bounded
  generalize x.toModel.unpack = u at *
  cases hparts with
  | infinity => cases hq
  | notANumber => cases hq
  | zero => trivial
  | subnormal hn hx => exact ⟨Nat.lt_trans (hn ▸ BitVec.isLt _) (by decide), by omega⟩
  | normal hlast hn hx =>
    have he : (@unpackExponent .binary64 x.toModel.toBits.toBitVec).toNat ≠ 2047 := fun hfull =>
      hlast (BitVec.eq_of_toNat_eq hfull)
    have hbits := BitVec.isLt (@unpackExponent .binary64 x.toModel.toBits.toBitVec)
    exact ⟨hn ▸ BitVec.isLt _, by omega⟩

/-- A positive number that is finite is moderate. -/
theorem moderate_of_isFinite {x : Float} (hpos : (0.0 : Float) < x)
    (h : Scalar.isFinite x = true) : Moderate 971 x := by
  refine moderate_iff.2 ⟨bounded_of_isFinite h, ?_⟩
  obtain ⟨p, q, hp, hq, hbefore⟩ := lt_iff.1 hpos
  obtain rfl : (0, 0, 0) = p := Option.some.inj (rank?_zero.symm.trans hp)
  obtain ⟨hx, -⟩ | ⟨m, e, hm, hx, -⟩ := positive_cases hq hbefore <;> rw [hx] <;> trivial

/-- Every portion of a moderate number is as moderate. -/
theorem moderate_portion {k : Int} {x c : Float} (hx : Moderate k x) (hc : Moderate (-53) c)
    (hlow : -1074 ≤ k) (hhigh : k ≤ 971) : Moderate k (x * c) := by
  obtain ⟨hx, hx'⟩ := moderate_iff.1 hx
  obtain ⟨hc, hc'⟩ := moderate_iff.1 hc
  exact moderate_iff.2
    ⟨bounded_portion hx hc hlow hhigh, unsigned_unpack_pack (unsigned_mul hx' hc')⟩

end Storyboard.Binary
