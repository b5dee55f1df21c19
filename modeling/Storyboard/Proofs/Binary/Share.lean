import Storyboard.Proofs.Binary.Size
/-!
# Shares

A positive number below another one, divided by it, is at most one: the quotient is below one
before it is rounded, and rounding does not pass one.
-/

namespace Storyboard.Binary

open Float.Model (UnpackedFloat Format totalExponent)
open Float.Model.UnpackedFloat

/-- Zero or a positive number up to one. -/
def AtMostOne : UnpackedFloat → Prop
  | .zero .positive => True
  | .finite .positive m e _ => e < -52 ∨ e = -52 ∧ m ≤ 2 ^ 52
  | _ => False

/-- What is below one stays at most one when it is rounded: only a carry reaches one. -/
theorem atMostOne_roundWithAccuracy {b q : Nat} {t : Int} (acc : Accuracy) (hq : q < 2 ^ b)
    (hb : b + t ≤ 0) (ht : t ≤ -53) (hpos : 0 < b) :
    AtMostOne (roundWithAccuracy .binary64 .positive q t acc) := by
  have htotal := totalExponent_le (e := t) hpos hq
  obtain ⟨hfirst, hfirst'⟩ := shiftToTargetExponent_spec q t acc
  have hcarry := roundedMantissa_le (shiftToTargetExponent .binary64 q t acc).1
  obtain h | ⟨hround, h⟩ := roundWithAccuracy_cases .positive q t acc
  · rw [h]
    trivial
  · rw [h]
    generalize (shiftToTargetExponent .binary64 q t acc).1.roundedMantissa = r at *
    generalize (shiftToTargetExponent .binary64 q t acc).2 = e at *
    obtain ⟨-, hlast⟩ := shiftToTargetExponent_spec r e .exact
    have hmantissa := mantissa_shiftToTargetExponent r e .exact
    generalize (shiftToTargetExponent .binary64 r e .exact).1.mantissa = m at *
    generalize (shiftToTargetExponent .binary64 r e .exact).2 = e' at *
    rcases Nat.lt_or_ge r (2 ^ 53) with hr | hr
    · have := totalExponent_le (e := e) (by omega) hr
      exact .inl (by omega)
    · have hr' : r = 2 ^ 53 := by omega
      have hcarried : totalExponent r e = 54 + e := by
        rw [hr', totalExponent, Nat.log2_two_pow]
        omega
      rw [hcarried, show (max (54 + e - 53) (-1074) - e).toNat = 1 by omega, hr'] at hmantissa
      rcases Int.lt_or_eq_of_le (show e' ≤ -52 by omega) with he | he
      · exact .inl he
      · exact .inr ⟨he, by omega⟩

theorem atMostOne_div {m m' : Nat} {e e' : Int} {hm : 0 < m} {hm' : 0 < m'}
    (hnormal : 2 ^ 52 ≤ m') (hm53 : m < 2 ^ 53) (h : e < e' ∨ e = e' ∧ m < m') :
    AtMostOne (div .binary64 (.finite .positive m e hm) (.finite .positive m' e' hm')) := by
  have htotal := totalExponent_le (e := e) (by omega) hm53
  have hlow : 52 + 1 + e' ≤ totalExponent m' e' := by
    have := (Nat.le_log2 (by omega)).2 hnormal
    unfold totalExponent
    omega
  dsimp only [div, divCore]
  rw [targetExponent_binary64]
  generalize ht : min (e - e') (max (totalExponent m e - totalExponent m' e' - 53) (-1074)) = t
  generalize hs : (e - e' - t).toNat = s
  have hquotient : m <<< s / m' < 2 ^ (-t).toNat := by
    rw [Nat.div_lt_iff_lt_mul hm', Nat.shiftLeft_eq]
    rcases h with h | ⟨h, hlt⟩
    · -- The exponents make up for a factor of two between the significands.
      calc m * 2 ^ s < 2 ^ 53 * 2 ^ s := Nat.mul_lt_mul_of_pos_right hm53 (Nat.two_pow_pos s)
        _ = 2 ^ (s + 1) * 2 ^ 52 := by rw [← Nat.pow_add, ← Nat.pow_add]; congr 1; omega
        _ ≤ 2 ^ (-t).toNat * m' :=
          Nat.mul_le_mul (Nat.pow_le_pow_right (by omega) (by omega)) hnormal
    · rw [show s = (-t).toNat by omega, Nat.mul_comm]
      exact Nat.mul_lt_mul_of_pos_left hlt (Nat.two_pow_pos _)
  exact atMostOne_roundWithAccuracy _ hquotient (by omega) (by omega) (by omega)

/-! ## Packing -/

theorem atMostOne_unpack {e : BitVec 11} {m : BitVec 52}
    (h : e.toNat < 1023 ∨ e.toNat = 1023 ∧ m = 0#52) :
    AtMostOne (unpack .binary64 (packComponents .binary64 .positive e m)) := by
  have hfinite : e ≠ -1#11 := by
    rintro rfl
    simp at h
  have hparts := unpacked_packComponents .positive e m
  generalize unpack .binary64 (packComponents .binary64 .positive e m) = u at *
  cases hparts with
  | infinity hlast => exact absurd hlast hfinite
  | notANumber hlast => exact absurd hlast hfinite
  | zero => trivial
  | subnormal _ hx => exact .inl (by omega)
  | normal _ hn hx =>
    rcases h with h | ⟨h, rfl⟩
    · exact .inl (by omega)
    · exact .inr ⟨by omega, hn ▸ by decide⟩

theorem atMostOne_unpack_pack {u : UnpackedFloat} (h : AtMostOne u) :
    AtMostOne (unpack .binary64 (pack .binary64 u)) := by
  rcases u with (_ | _) | _ | (_ | _) | ⟨_ | _, m, e, hm⟩
  case zero.positive => trivial
  case finite.positive =>
    have hbelow : e ≤ -52 := by
      rcases h with h | ⟨h, -⟩ <;> omega
    rw [pack_finite, if_neg (by omega)]
    split
    · rename_i hlog
      refine atMostOne_unpack ?_
      simp only [BitVec.toNat_ofNat]
      rcases h with h | ⟨rfl, hm52⟩
      · left
        omega
      · right
        have hnormal : 2 ^ 52 ≤ m := (Nat.le_log2 (by omega)).1 (by
          have hbits : m.log2 + 1 = 53 := hlog
          omega)
        have hm' : m = 2 ^ 52 := by omega
        subst hm'
        exact ⟨by decide, by decide⟩
    · exact atMostOne_unpack (.inl (by decide))
  all_goals exact h.elim

theorem not_one_lt_of_atMostOne {x : Float} (h : AtMostOne x.toModel.unpack) : ¬ 1.0 < x := by
  rw [lt_iff]
  rintro ⟨p, q, hp, hq, hbefore⟩
  rw [show rank? (1.0 : Float).toModel.unpack = some (1, -52, 2 ^ 52) from rfl,
    Option.some.injEq] at hp
  subst hp
  rcases hx : x.toModel.unpack with (_ | _) | _ | (_ | _) | ⟨_ | _, m, e, hm⟩ <;>
    rw [hx] at h hq
  case zero.positive =>
    cases hq
    simp [Before] at hbefore
  case finite.positive =>
    cases hq
    simp only [Before, true_and] at hbefore
    rcases h with h | h <;> omega
  all_goals exact h.elim

/-! ## Percentages -/

theorem unpack_hundred :
    (100.0 : Float).toModel.unpack = .finite .positive (100 * 2 ^ 46) (-46) (by decide) :=
  rfl

theorem not_one_lt_div_hundred {x : Float} (hpos : (0.0 : Float) < x) (h : ¬ 100.0 < x) :
    ¬ 1.0 < x / 100.0 := by
  have hmoderate : Moderate (-46) x := moderate_of_not_lt hpos (by decide) h
  refine not_one_lt_of_atMostOne (atMostOne_unpack_pack ?_)
  show AtMostOne (div .binary64 x.toModel.unpack (100.0 : Float).toModel.unpack)
  obtain hx | ⟨m, e, hm, hx, hm53, he⟩ := modest_cases hmoderate
  · rw [hx]
    trivial
  · have hbelow : ¬ Before (1, -46, 100 * 2 ^ 46) (1, e, m) := fun hbefore =>
      h (lt_iff.2 ⟨(1, -46, 100 * 2 ^ 46), (1, e, m), rfl, by rw [hx]; rfl, hbefore⟩)
    simp only [Before, true_and] at hbelow
    have hle : e < -46 ∨ e = -46 ∧ m < 100 * 2 ^ 46 ∨ e = -46 ∧ m = 100 * 2 ^ 46 := by
      omega
    rw [hx, unpack_hundred]
    rcases hle with hlt | ⟨heq, hlt⟩ | ⟨rfl, rfl⟩
    · exact atMostOne_div (by decide) hm53 (.inl hlt)
    · exact atMostOne_div (by decide) hm53 (.inr ⟨heq, hlt⟩)
    · exact .inr ⟨rfl, by decide⟩

end Storyboard.Binary
