import Storyboard.Proofs.Binary.Exact
import Storyboard.Proofs.Binary.Sign
/-!
# Proper measures

A measure is proper when it is defined and not below zero; it may be infinite.  What a numeral
without a minus sign is read as is proper, and so is a proper measure taken a positive finite number
of times.
-/

namespace Storyboard.Binary

open Float.Model (UnpackedFloat Format)
open Float.Model.UnpackedFloat

/-- A number that is defined and not below zero. -/
def Proper (x : Float) : Prop := Scalar.isUndefined x = false ∧ 0.0 ≤ x

/-- The rank is there, and not below that of zero. -/
def Nonnegative (u : UnpackedFloat) : Prop := ∃ r, rank? u = some r ∧ 0 ≤ r.1

theorem nonnegative_cases {u : UnpackedFloat} (h : Nonnegative u) :
    u = .infinity .positive ∨ (∃ s, u = .zero s) ∨ ∃ m e hm, u = .finite .positive m e hm := by
  obtain ⟨r, hr, hle⟩ := h
  have hsign : ¬ (0 : Int) ≤ -1 ∧ ¬ (0 : Int) ≤ -2 := by decide
  cases u with
  | notANumber => cases hr
  | zero s => exact .inr (.inl ⟨s, rfl⟩)
  | infinity s =>
      cases s <;> cases hr
      · exact absurd hle hsign.2
      · exact .inl rfl
  | finite s m e hm =>
      cases s <;> cases hr
      · exact absurd hle hsign.1
      · exact .inr (.inr ⟨m, e, hm, rfl⟩)

theorem nonnegative_finite {m : Nat} {e : Int} (hm : 0 < m) :
    Nonnegative (.finite .positive m e hm) :=
  ⟨(1, e, m), rfl, by show (0 : Int) ≤ 1; decide⟩

theorem nonnegative_infinity : Nonnegative (.infinity .positive) := ⟨(2, 0, 0), rfl, by decide⟩

theorem nonnegative_zero (s : Sign) : Nonnegative (.zero s) := ⟨(0, 0, 0), rfl, by decide⟩

theorem isUndefined_zero : Scalar.isUndefined (0.0 : Float) = false := by decide

theorem proper_iff {x : Float} : Proper x ↔ Nonnegative x.toModel.unpack := by
  constructor
  · rintro ⟨hx, hle⟩
    obtain ⟨r, hr⟩ := isUndefined_eq_false_iff.1 hx
    refine ⟨r, hr, Int.not_lt.1 fun hneg => ?_⟩
    exact not_lt_of_le hle (lt_iff.2 ⟨r, (0, 0, 0), hr, rank?_zero, .inl hneg⟩)
  · intro h
    obtain ⟨r, hr, hle⟩ := h
    have hx := isUndefined_eq_false_iff.2 ⟨r, hr⟩
    refine ⟨hx, (le_iff_not_lt isUndefined_zero hx).2 ?_⟩
    rw [lt_iff, rank?_zero]
    rintro ⟨p, q, hp, hq, hbefore⟩
    cases hq
    obtain hu | ⟨s, hu⟩ | ⟨m, e, hm, hu⟩ := nonnegative_cases ⟨r, hr, hle⟩ <;> rw [hu] at hp <;>
      cases hp <;> simp [Before] at hbefore

theorem proper_of_lt {low x : Float} (hlow : Proper low) (h : low < x) : Proper x := by
  have hx := (isUndefined_of_lt h).2
  refine ⟨hx, (le_iff_not_lt isUndefined_zero hx).2 fun hneg => ?_⟩
  exact not_lt_of_le hlow.2 (lt_trans h hneg)

/-! ## Operations -/

theorem nonnegative_roundWithAccuracy (m : Nat) (e : Int) (acc : Accuracy) :
    Nonnegative (roundWithAccuracy .binary64 .positive m e acc) := by
  obtain h | ⟨hpos, h⟩ := roundWithAccuracy_cases .positive m e acc
  · rw [h]
    exact nonnegative_zero _
  · rw [h]
    exact nonnegative_finite hpos

theorem nonnegative_mul {a : UnpackedFloat} (ha : Nonnegative a) {m : Nat} {e : Int}
    (hm : 0 < m) : Nonnegative (mul .binary64 a (.finite .positive m e hm)) := by
  obtain rfl | ⟨s, rfl⟩ | ⟨m', e', hm', rfl⟩ := nonnegative_cases ha
  · exact nonnegative_infinity
  · exact nonnegative_zero _
  · exact nonnegative_roundWithAccuracy _ _ _

theorem nonnegative_div {a : UnpackedFloat} (ha : Nonnegative a) {m : Nat} {e : Int}
    (hm : 0 < m) : Nonnegative (div .binary64 a (.finite .positive m e hm)) := by
  obtain rfl | ⟨s, rfl⟩ | ⟨m', e', hm', rfl⟩ := nonnegative_cases ha
  · exact nonnegative_infinity
  · exact nonnegative_zero _
  · exact nonnegative_roundWithAccuracy _ _ _

theorem nonnegative_normalize {n e : Int} (h : 0 ≤ n) :
    Nonnegative (UnpackedFloat.normalize .binary64 n e .positive) := by
  unfold UnpackedFloat.normalize
  split
  · rename_i hneg
    rw [Int.compare_eq_lt] at hneg
    omega
  · exact nonnegative_zero _
  · exact nonnegative_roundWithAccuracy _ _ _

theorem nonnegative_ofScientific (m : Nat) (e : Int) :
    Nonnegative (ofScientific .binary64 m e) := by
  unfold ofScientific
  by_cases hm : m = 0
  · rw [dif_pos hm]
    exact nonnegative_zero _
  · rw [dif_neg hm]
    refine iteInduction (fun _ => nonnegative_infinity) fun _ =>
      iteInduction (fun _ => nonnegative_zero _) fun _ => ?_
    exact iteInduction (fun _ => nonnegative_mul (nonnegative_finite _) _)
      fun _ => nonnegative_div (nonnegative_finite _) _

/-! ## Packing -/

/-- An exponent of ones only is kept for infinity. -/
theorem nonnegative_unpack {e : BitVec 11} (he : e ≠ -1#11) (m : BitVec 52) :
    Nonnegative (unpack .binary64 (packComponents .binary64 .positive e m)) := by
  have hparts := unpacked_packComponents .positive e m
  generalize unpack .binary64 (packComponents .binary64 .positive e m) = u at *
  cases hparts with
  | infinity h => exact absurd h he
  | notANumber h => exact absurd h he
  | zero => exact nonnegative_zero _
  | subnormal => exact nonnegative_finite _
  | normal => exact nonnegative_finite _

theorem nonnegative_unpack_pack {u : UnpackedFloat} (h : Nonnegative u) :
    Nonnegative (unpack .binary64 (pack .binary64 u)) := by
  obtain rfl | ⟨s, rfl⟩ | ⟨m, e, hm, rfl⟩ := nonnegative_cases h
  · exact nonnegative_infinity
  · cases s <;> exact nonnegative_zero _
  · rw [pack_finite]
    split
    · exact nonnegative_infinity
    · rename_i hlarge
      split
      · exact nonnegative_unpack (exponent_ne_ones (Nat.lt_of_not_le hlarge)) _
      · exact nonnegative_unpack (by decide) _

/-! ## Factors -/

/-- A positive finite number. -/
def Factor (c : Float) : Prop := 0.0 < c ∧ Moderate 971 c

instance : DecidablePred Factor := fun c => inferInstanceAs (Decidable (0.0 < c ∧ Moderate 971 c))

theorem Factor.exists_finite {c : Float} (h : Factor c) :
    ∃ m e hm, c.toModel.unpack = .finite .positive m e hm := by
  obtain ⟨hpos, hmoderate⟩ := h
  obtain hzero | ⟨m, e, hm, hc, -⟩ := modest_cases hmoderate
  · obtain ⟨p, q, hp, hq, hbefore⟩ := lt_iff.1 hpos
    rw [rank?_zero] at hp
    rw [hzero] at hq
    cases hp
    cases hq
    simp [Before] at hbefore
  · exact ⟨m, e, hm, hc⟩

theorem proper_mul {x c : Float} (hx : Proper x) (hc : Factor c) : Proper (x * c) := by
  obtain ⟨m, e, hm, hunpack⟩ := hc.exists_finite
  rw [proper_iff] at hx ⊢
  have hproduct := nonnegative_unpack_pack (nonnegative_mul (e := e) hx hm)
  rwa [← hunpack] at hproduct

theorem proper_div {x c : Float} (hx : Proper x) (hc : Factor c) : Proper (x / c) := by
  obtain ⟨m, e, hm, hunpack⟩ := hc.exists_finite
  rw [proper_iff] at hx ⊢
  have hquotient := nonnegative_unpack_pack (nonnegative_div (e := e) hx hm)
  rwa [← hunpack] at hquotient

/-! ## Numerals -/

theorem factor_powerOfTen {e : Nat} (he : e < Float.exactlyRepresentablePowersOfTen.size) :
    Factor Float.exactlyRepresentablePowersOfTen[e] := by
  have hall : ∀ c ∈ Float.exactlyRepresentablePowersOfTen, Factor c := by decide +kernel
  exact hall _ (Array.getElem_mem he)

theorem proper_numeral (m : Nat) (s : Bool) (e : Nat) : Proper (Float.ofScientific m s e) := by
  unfold Float.ofScientific
  split
  · rename_i h
    have hdigits : Proper m.toUInt64.toFloat :=
      proper_iff.2 (nonnegative_unpack_pack (nonnegative_normalize (Int.natCast_nonneg _)))
    have hpower := factor_powerOfTen (e := e) (by
      simp [Float.exactlyRepresentablePowersOfTen]
      omega)
    dsimp only
    split
    · exact proper_div hdigits hpower
    · exact proper_mul hdigits hpower
  · exact proper_iff.2 (nonnegative_unpack_pack (nonnegative_ofScientific _ _))

/-- A numeral without a minus sign stands for a proper measure. -/
theorem proper_ofDecimal (digits : Nat) (exponent : Int) :
    Proper (Scalar.ofDecimal false digits exponent) := by
  show Proper (binaryOfDecimal false digits exponent)
  unfold binaryOfDecimal
  simp only [Bool.false_eq_true, if_false]
  split
  · exact proper_numeral _ _ _
  · split
    · exact proper_iff.2 nonnegative_infinity
    · split
      · exact proper_numeral _ _ _
      · split <;> exact proper_numeral _ _ _

/-! ## Moving into a range -/

/-- What is moved into a range from zero on is proper, even when it was not defined. -/
theorem proper_clamp (x high : Float) : Proper (Scalar.clamp x 0.0 high) := by
  have hzero : Proper 0.0 := proper_numeral _ _ _
  obtain heq | hlt := max_eq_or_lt 0.0 (Scalar.min high x)
  · rwa [Scalar.clamp, heq]
  · exact proper_of_lt hzero hlt

theorem proper_min {x y : Float} (hx : Proper x) (hy : Proper y) : Proper (Scalar.min x y) := by
  unfold Scalar.min
  split
  · exact hy
  · exact hx

end Storyboard.Binary
