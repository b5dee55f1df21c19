import Storyboard.Proofs.Binary.Bound
import Storyboard.Proofs.Binary.Order
/-!
# Numbers without a minus sign

Sums, products and quotients of numbers without a minus sign have none.  Such a number is never
below zero.
-/

namespace Storyboard.Binary

open Float.Model (UnpackedFloat Format)
open Float.Model.UnpackedFloat

/-- There is no minus sign; the undefined number has none. -/
def Unsigned : UnpackedFloat → Prop
  | .infinity .negative | .zero .negative | .finite .negative _ _ _ => False
  | _ => True

instance : DecidablePred Unsigned
  | .infinity .negative | .zero .negative | .finite .negative _ _ _ => .isFalse id
  | .infinity .positive | .zero .positive | .finite .positive _ _ _ | .notANumber =>
    .isTrue trivial

/-! ## Operations -/

theorem unsigned_roundWithAccuracy (m : Nat) (e : Int) (acc : Accuracy) :
    Unsigned (roundWithAccuracy .binary64 .positive m e acc) := by
  obtain h | ⟨hpos, h⟩ := roundWithAccuracy_cases .positive m e acc <;> rw [h] <;> trivial

theorem unsigned_round (m : Nat) (e : Int) :
    Unsigned (UnpackedFloat.round .binary64 .positive m e) :=
  unsigned_roundWithAccuracy _ _ _

theorem unsigned_mul {a b : UnpackedFloat} (ha : Unsigned a) (hb : Unsigned b) :
    Unsigned (mul .binary64 a b) := by
  rcases a with (_ | _) | _ | (_ | _) | ⟨_ | _, m, e, hm⟩ <;>
    rcases b with (_ | _) | _ | (_ | _) | ⟨_ | _, m', e', hm'⟩ <;>
    first
    | trivial
    | exact ha.elim
    | exact hb.elim
    | exact unsigned_roundWithAccuracy _ _ _

theorem unsigned_div {a b : UnpackedFloat} (ha : Unsigned a) (hb : Unsigned b) :
    Unsigned (div .binary64 a b) := by
  rcases a with (_ | _) | _ | (_ | _) | ⟨_ | _, m, e, hm⟩ <;>
    rcases b with (_ | _) | _ | (_ | _) | ⟨_ | _, m', e', hm'⟩ <;>
    first
    | trivial
    | exact ha.elim
    | exact hb.elim
    | exact unsigned_roundWithAccuracy _ _ _

theorem unsigned_normalize {n e : Int} (h : 0 ≤ n) :
    Unsigned (UnpackedFloat.normalize .binary64 n e .positive) := by
  unfold UnpackedFloat.normalize
  split
  · rename_i hneg
    rw [Int.compare_eq_lt] at hneg
    omega
  · trivial
  · exact unsigned_round _ _

theorem unsigned_add {a b : UnpackedFloat} (ha : Unsigned a) (hb : Unsigned b) :
    Unsigned (add .binary64 a b) := by
  rcases a with (_ | _) | _ | (_ | _) | ⟨_ | _, m, e, hm⟩ <;>
    rcases b with (_ | _) | _ | (_ | _) | ⟨_ | _, m', e', hm'⟩ <;>
    first
    | trivial
    | exact ha.elim
    | exact hb.elim
    | exact unsigned_normalize (Int.add_nonneg (Int.natCast_nonneg _) (Int.natCast_nonneg _))

/-! ## Packing -/

theorem unsigned_unpack (e : BitVec 11) (m : BitVec 52) :
    Unsigned (unpack .binary64 (packComponents .binary64 .positive e m)) := by
  have hparts := unpacked_packComponents .positive e m
  generalize unpack .binary64 (packComponents .binary64 .positive e m) = u at *
  cases hparts <;> trivial

theorem unsigned_unpack_pack {u : UnpackedFloat} (h : Unsigned u) :
    Unsigned (unpack .binary64 (pack .binary64 u)) := by
  rcases u with (_ | _) | _ | (_ | _) | ⟨_ | _, m, e, hm⟩
  case infinity.positive => exact unsigned_unpack _ _
  case notANumber => exact unsigned_unpack _ _
  case zero.positive => exact unsigned_unpack _ _
  case finite.positive =>
    rw [pack_finite]
    split
    · exact unsigned_unpack _ _
    · split <;> exact unsigned_unpack _ _
  all_goals exact h.elim

/-! ## Order -/

theorem not_lt_zero_of_unsigned {x : Float} (h : Unsigned x.toModel.unpack) : ¬ x < 0.0 := by
  rw [lt_iff]
  rintro ⟨p, q, hp, hq, hbefore⟩
  rw [rank?_zero, Option.some.injEq] at hq
  subst hq
  rcases hx : x.toModel.unpack with (_ | _) | _ | (_ | _) | ⟨_ | _, m, e, hm⟩ <;>
    rw [hx] at h hp <;>
    cases hp
  all_goals
    first
    | exact h.elim
    | simp [Before] at hbefore

end Storyboard.Binary
