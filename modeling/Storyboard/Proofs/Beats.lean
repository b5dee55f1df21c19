import Storyboard.Plan
import Storyboard.Proofs.Binary.Product
import Storyboard.Proofs.Binary.Proper
/-!
# Beats

The beats of a plan tile its duration: they start at zero, each ends where the next one starts, and
the last one ends with the plan.  In binary none of them ends before it starts, because a quarter
and four fifths of a number lie on the two sides of its half, which is exact.
-/

namespace Storyboard

namespace Binary

open Float.Model (UnpackedFloat)
open Float.Model.UnpackedFloat

variable {x y c : Float} {p : Rat}

/-! ## Parts of a duration -/

/-- Half of a number from one on is exact. -/
theorem toRat?_half (hx : Scalar.toRat? x = some p) (hp : 1 ≤ p) :
    Scalar.toRat? (x * 0.5) = some (p / 2) := by
  obtain ⟨m, e, hm, hux, hvalue, ⟨hhigh, hfirst, hsmall⟩, hlast⟩ :=
    exists_finite hx (by linarith)
  -- With the least exponent the number would be below one.
  have hne : e ≠ -1074 := by
    rintro rfl
    have hsize : (m : Rat) * 2 ^ (-1074 : Int) < (2 ^ 52 : Nat) * 2 ^ (-52 : Int) :=
      size_lt_size hhigh (Nat.le_refl _) (by omega)
    have hone : ((2 ^ 52 : Nat) : Rat) * 2 ^ (-52 : Int) = 1 := by norm_num
    rw [← hvalue, hone] at hsize
    linarith
  have hlow : 2 ^ 52 ≤ m := hsmall.resolve_left hne
  have hcanonical : Canonical (.finite .positive m (e - 1) hm) := ⟨hhigh, by omega, .inr hlow⟩
  have hconfined : Confined 971 (.finite .positive m (e - 1) hm) := ⟨hhigh, by omega⟩
  rw [toRat?_eq_value?, unpack_mul_half, hux, mul_half_of_normal hlow hhigh (by omega),
    unpack_pack hcanonical hconfined]
  show some ((m : Rat) * 2 ^ (e - 1)) = some (p / 2)
  rw [hvalue, zpow_sub_one₀ (by norm_num)]
  ring_nf

theorem unpack_mul_of_infinity (hx : x.toModel.unpack = .infinity .positive) (hc : Factor c) :
    (x * c).toModel.unpack = .infinity .positive := by
  obtain ⟨m, e, hm, huc⟩ := hc.exists_finite
  show unpack .binary64 (pack .binary64 (mul .binary64 x.toModel.unpack c.toModel.unpack)) = _
  rw [hx, huc]
  show unpack .binary64 (pack .binary64 (.infinity .positive)) = _
  rfl

/-- Nothing is below infinity and at the same time not below it. -/
theorem not_lt_of_infinity (hx : x.toModel.unpack = .infinity .positive)
    (hy : y.toModel.unpack = .infinity .positive) : ¬ x < y := by
  rw [lt_iff, hx, hy]
  rintro ⟨p, q, hp, hq, hbefore⟩
  cases hp
  cases hq
  simp [Before] at hbefore

theorem toRat?_quarter : Scalar.toRat? (0.25 : Float) = some (1 / 4) := by
  rw [toRat?_eq_value?]
  show some ((2 ^ 52 : Nat) * (2 : Rat) ^ (-54 : Int)) = some (1 / 4)
  norm_num

/-- The number nearest to four fifths is on the same side of a half and of one. -/
theorem exists_fourFifths : ∃ q, Scalar.toRat? (0.8 : Float) = some q ∧ 1 / 2 ≤ q ∧ q ≤ 1 := by
  have hvalue : Scalar.toRat? (0.8 : Float) =
      some ((7205759403792794 : Nat) * (2 : Rat) ^ (-53 : Int)) := by
    rw [toRat?_eq_value?]
    rfl
  exact ⟨_, hvalue, by norm_num, by norm_num⟩

/-- A number from one on, infinity included, is infinite or has a value from one on. -/
theorem infinity_or_value (hpos : (0.0 : Float) < x) (hone : 1.0 ≤ x) :
    x.toModel.unpack = .infinity .positive ∨ ∃ p, Scalar.toRat? x = some p ∧ 1 ≤ p := by
  obtain ⟨q, r, hq, hr, hbefore⟩ := lt_iff.1 hpos
  rw [rank?_zero] at hq
  cases hq
  obtain ⟨hinfinite, -⟩ | ⟨m, e, hm, hfinite, -⟩ := positive_cases hr hbefore
  · exact .inl hinfinite
  · have hvalue : Scalar.toRat? x = some ((m : Rat) * 2 ^ e) := by
      rw [toRat?_eq_value?, hfinite]
      rfl
    exact .inr ⟨_, hvalue, (le_iff_le toRat?_one hvalue).1 hone⟩

/-- A quarter of a number from one on is not above four fifths of it, and these are not above it. -/
theorem parts_in_order (hpos : (0.0 : Float) < x) (hone : 1.0 ≤ x) :
    ¬ x * 0.8 < x * 0.25 ∧ ¬ x < x * 0.8 := by
  obtain hinfinite | ⟨p, hx, hp⟩ := infinity_or_value hpos hone
  · have hquarter := unpack_mul_of_infinity hinfinite (c := 0.25) (by decide)
    have hfifths := unpack_mul_of_infinity hinfinite (c := 0.8) (by decide)
    exact ⟨not_lt_of_infinity hfifths hquarter, not_lt_of_infinity hinfinite hfifths⟩
  · -- The exact half stands between the two products, and neither of them is rounded past it.
    have hhalf := toRat?_half hx hp
    obtain ⟨q, hq, hlow, hhigh⟩ := exists_fourFifths
    have habove : ¬ x * 0.8 < x * 0.5 := by
      refine (mul_passes_none hx hq hhalf ?_ ?_ ?_).1 ?_ <;> nlinarith
    have hbelow : ¬ x * 0.5 < x * 0.25 := by
      refine (mul_passes_none hx toRat?_quarter hhalf ?_ ?_ ?_).2 ?_ <;> linarith
    have hdefined : Scalar.isUndefined (x * 0.5) = false :=
      isUndefined_of_isFinite (Option.isSome_iff_exists.2 ⟨_, hhalf⟩)
    refine ⟨not_lt_trans hdefined habove hbelow, ?_⟩
    exact not_lt_mul_self hx hq (by linarith) (by linarith) hhigh

end Binary

namespace Beats

variable {α : Type} [Scalar α]

/-- The beats go from zero to `d` without a gap, and none of them ends before it starts. -/
structure Tile (b : Beats α) (d : α) : Prop where
  first : b.intro.start = 0.0
  intro : b.intro.start ≤ b.intro.finish
  second : b.intro.finish = b.action.start
  action : b.action.start ≤ b.action.finish
  third : b.action.finish = b.settle.start
  settle : b.settle.start ≤ b.settle.finish
  last : b.settle.finish = d

open Binary

theorem tile_ofDuration {d : Float} (hpos : (0.0 : Float) < d) (hone : 1.0 ≤ d) :
    (ofDuration d).Tile d := by
  have hproper : Proper d := proper_of_lt ⟨isUndefined_zero, by decide⟩ hpos
  have hquarter : Proper (d * 0.25) := proper_mul hproper (by decide)
  have hfifths : Proper (d * 0.8) := proper_mul hproper (by decide)
  obtain ⟨hmiddle, hend⟩ := parts_in_order hpos hone
  exact {
    first := rfl
    intro := hquarter.2
    second := rfl
    action := (le_iff_not_lt hquarter.1 hfifths.1).2 hmiddle
    third := rfl
    settle := (le_iff_not_lt hfifths.1 hproper.1).2 hend
    last := rfl }

end Beats

end Storyboard
