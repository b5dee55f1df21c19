import Storyboard.Proofs.Binary.Product
import Storyboard.Proofs.Binary.Tame
/-!
# Parts of binary numbers

A number that is not finite leaves no product, quotient or difference finite.  A part of a finite
number above zero is another number: a row of places that is nine twentieths as long as a length and
starts at zero, around some centre, does not have this length.
-/

namespace Storyboard.Binary

open Float.Model (UnpackedFloat)
open Float.Model.UnpackedFloat

variable {x y z : Float} {p q : Rat} {u v : UnpackedFloat}

/-! ## Results that are finite -/

theorem value?_mul_of_left (hu : value? u = none) : value? (mul .binary64 u v) = none := by
  rcases u with s | _ | _ | ⟨_ | _, m, e, hm⟩
  case infinity => cases v <;> rfl
  case notANumber => rfl
  all_goals cases hu

theorem value?_div_of_left (hu : value? u = none) : value? (div .binary64 u v) = none := by
  rcases u with s | _ | _ | ⟨_ | _, m, e, hm⟩
  case infinity => cases v <;> rfl
  case notANumber => rfl
  all_goals cases hu

theorem value?_sub_of_right (hv : value? v = none) : value? (sub .binary64 u v) = none := by
  rcases v with s | _ | _ | ⟨_ | _, m, e, hm⟩
  case infinity =>
    cases u with
    | infinity s' => cases s <;> cases s' <;> rfl
    | _ => rfl
  case notANumber => cases u <;> rfl
  all_goals cases hv

theorem isFinite_left_of_mul (h : Scalar.isFinite (x * y) = true) : Scalar.isFinite x = true :=
  isFinite_of_result (z := x * y) rfl value?_mul_of_left h

theorem isFinite_left_of_div (h : Scalar.isFinite (x / y) = true) : Scalar.isFinite x = true :=
  isFinite_of_result (z := x / y) rfl value?_div_of_left h

theorem isFinite_right_of_sub (h : Scalar.isFinite (x - y) = true) : Scalar.isFinite y = true :=
  isFinite_of_result (z := x - y) rfl value?_sub_of_right h

theorem isFinite_of_isZero (h : Scalar.isZero x = true) : Scalar.isFinite x = true := by
  obtain ⟨hlow, hhigh⟩ : x ≤ 0.0 ∧ 0.0 ≤ x := by simpa [Scalar.isZero] using h
  have hnan := ne_notANumber_of_le hlow
  have habove := not_lt_of_le hlow
  have hbelow := not_lt_of_le hhigh
  rw [lt_iff, rank?_zero] at habove hbelow
  rw [Scalar.isFinite, toRat?_eq_value?]
  generalize x.toModel.unpack = u at *
  rcases u with (_ | _) | _ | _ | ⟨_ | _, m, e, hm⟩
  case infinity.positive => exact absurd ⟨_, _, rfl, rfl, .inl (by decide)⟩ habove
  case infinity.negative => exact absurd ⟨_, _, rfl, rfl, .inl (by decide)⟩ hbelow
  case notANumber => exact absurd rfl hnan
  all_goals rfl

/-! ## Parts up to a half -/

/-- A part up to a half is rounded to another number, unless the whole is the least number. -/
theorem mul_ne_self (hx : Scalar.toRat? x = some p) (hy : Scalar.toRat? y = some q) (hp : 0 < p)
    (hq : 0 < q) (hhalf : q ≤ 1 / 2)
    (hleast : x.toModel.unpack ≠ .finite .positive 1 (-1074) Nat.one_pos) : x * y ≠ x := by
  intro heq
  obtain ⟨k, f, hk, hux, hvalue, hc, hf⟩ := exists_finite hx hp
  obtain ⟨m, n, e, hm, hn, hexact, hfinite | ⟨hample, -⟩⟩ := mul_cases hx hy hp hq
  · have hmany : k ≠ 1 := by
      rintro rfl
      obtain rfl : f = -1074 := hc.2.2.resolve_right (by omega)
      exact hleast hux
    -- Half of the significand, rounded up, still fits: the product is rounded to no more than that.
    have hunit : (0 : Rat) < 2 ^ f := zpow_pos (by norm_num) f
    have hup : (k : Rat) ≤ ((k + 1) / 2 : Nat) * 2 := by
      norm_cast
      omega
    have hless : (((k + 1) / 2 : Nat) : Rat) < k := by
      norm_cast
      omega
    have hproduct : (m : Rat) * 2 ^ e ≤ ((k + 1) / 2 : Nat) * 2 ^ f := by
      calc (m : Rat) * 2 ^ e = k * 2 ^ f * q := by rw [← hexact, hvalue]
        _ ≤ k * 2 ^ f * (1 / 2) := by gcongr
        _ = k / 2 * 2 ^ f := by ring
        _ ≤ ((k + 1) / 2 : Nat) * 2 ^ f := by gcongr; linarith
    have hrounded := (rounded_passes_none hm hn (by omega) hc.2.1).2 hproduct
    rw [heq, hx, Option.some.injEq, hvalue] at hfinite
    rw [← hfinite, mul_le_mul_iff_left₀ hunit] at hrounded
    exact absurd hrounded (not_le.2 hless)
  · rw [heq, hux] at hample
    exact absurd hample.2.2.2 (by omega)

theorem unpack_nineTwentieths : (0.45 : Float).toModel.unpack =
    .finite .positive 8106479329266893 (-54) (by decide) :=
  rfl

/-- Nine twentieths of the least number are rounded down to zero. -/
theorem least_mul_nineTwentieths :
    rank? (unpack .binary64 (pack .binary64 (mul .binary64
      (.finite .positive 1 (-1074) Nat.one_pos)
      (.finite .positive 8106479329266893 (-54) (by decide))))) = some (0, 0, 0) := by
  decide +kernel

theorem mul_nineTwentieths_ne_self (hx : Scalar.toRat? x = some p) (hp : 0 < p) :
    x * 0.45 ≠ x := by
  by_cases hleast : x.toModel.unpack = .finite .positive 1 (-1074) Nat.one_pos
  · intro heq
    have hrank : rank? (x * 0.45).toModel.unpack = some (0, 0, 0) := by
      show rank? (unpack .binary64 (pack .binary64
        (mul .binary64 x.toModel.unpack (0.45 : Float).toModel.unpack))) = _
      rw [hleast, unpack_nineTwentieths]
      exact least_mul_nineTwentieths
    rw [heq, hleast] at hrank
    cases hrank
  · have hpart : Scalar.toRat? (0.45 : Float) =
        some ((8106479329266893 : Nat) * (2 : Rat) ^ (-54 : Int)) := by
      rw [toRat?_eq_value?, unpack_nineTwentieths]
      rfl
    exact mul_ne_self hx hpart hp (by norm_num) (by norm_num) hleast

/-- Places around a centre that start at zero are not as many as a length that they are nine
twentieths of. -/
theorem mul_nineTwentieths_ne_of_isZero (hx : ¬ x ≤ 0.0)
    (hzero : Scalar.isZero (y - x * 0.45 / 2.0) = true) : x * 0.45 ≠ x := by
  have hfinite : Scalar.isFinite x = true := by
    apply isFinite_left_of_mul (y := 0.45)
    apply isFinite_left_of_div (y := 2.0)
    exact isFinite_right_of_sub (isFinite_of_isZero hzero)
  obtain ⟨p, hp⟩ := Option.isSome_iff_exists.1 hfinite
  rw [le_iff_le hp toRat?_zero, not_le] at hx
  exact mul_nineTwentieths_ne_self hp hx

end Storyboard.Binary
