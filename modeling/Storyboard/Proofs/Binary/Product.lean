import Mathlib.Tactic.Linarith
import Storyboard.Proofs.Binary.Half
import Storyboard.Proofs.Binary.Whole
/-!
# Rounded products

Rounding the product of two positive numbers does not pass a number: a number up to the exact
product is up to the rounded one, and so for numbers from it on.  So a factor from one on makes no
number smaller, and a factor up to one makes none larger.
-/

namespace Storyboard.Binary

open Float.Model (UnpackedFloat Format totalExponent)
open Float.Model.UnpackedFloat

/-! ## Rounding bits off -/

/-- A significand after its last `n` bits were rounded off. -/
def roundedOff (m n : Nat) : Nat :=
  (ExtendedMantissa.ofMantissaAndAccuracy m .exact >>> n).roundedMantissa

variable {m n k : Nat} {e f : Int}

theorem mantissa_shifted (m n : Nat) :
    (ExtendedMantissa.ofMantissaAndAccuracy m .exact >>> n).mantissa = m / 2 ^ n := by
  rw [mantissa_shiftRight, mantissa_ofMantissaAndAccuracy]

theorem div_le_roundedOff (m n : Nat) : m / 2 ^ n ≤ roundedOff m n := by
  rw [← mantissa_shifted]
  exact le_roundedMantissa _

theorem roundedOff_le_div (m n : Nat) : roundedOff m n ≤ m / 2 ^ n + 1 := by
  rw [← mantissa_shifted]
  exact roundedMantissa_le _

theorem le_roundedOff (h : k * 2 ^ n ≤ m) : k ≤ roundedOff m n :=
  Nat.le_trans ((Nat.le_div_iff_mul_le (Nat.two_pow_pos n)).2 h) (div_le_roundedOff m n)

theorem roundedOff_le (h : m ≤ k * 2 ^ n) : roundedOff m n ≤ k := by
  rcases Nat.eq_or_lt_of_le h with rfl | hlt
  · -- Nothing is lost here, so that the significand is not rounded up.
    unfold roundedOff
    rw [shiftRight_mul_two_pow]
    exact Nat.le_refl k
  · have hdiv : m / 2 ^ n < k := (Nat.div_lt_iff_lt_mul (Nat.two_pow_pos n)).2 hlt
    exact Nat.le_trans (roundedOff_le_div m n) hdiv

/-- The bits that are rounded off leave a full significand, unless the exponent is the least. -/
theorem full_div (hm : m ≠ 0) (hn : max (totalExponent m e - 53) (-1074) = e + n)
    (habove : -1074 < e + n) : 2 ^ 52 ≤ m / 2 ^ n := by
  have hlog : n + 52 = m.log2 := by
    unfold totalExponent at hn
    omega
  rw [Nat.le_div_iff_mul_le (Nat.two_pow_pos n), ← Nat.pow_add, Nat.add_comm 52 n, hlog]
  exact Nat.log2_self_le hm

/-! ## Rounding -/

theorem roundedOff_le_limit (hn : max (totalExponent m e - 53) (-1074) = e + n) :
    roundedOff m n ≤ 2 ^ 53 := by
  have hfits := (shiftToTargetExponent_spec m e .exact).1
  rw [mantissa_shiftToTargetExponent, hn, show (e + n - e).toNat = n by omega] at hfits
  have := roundedOff_le_div m n
  omega

/-- A carry of the rounding leaves a power of two. -/
theorem roundWithAccuracy_of_carry {em : ExtendedMantissa}
    (hfirst : shiftToTargetExponent .binary64 m e .exact = (em, f))
    (hcarry : em.roundedMantissa = 2 ^ 53) (hf : -1074 ≤ f) :
    roundWithAccuracy .binary64 .positive m e .exact =
      .finite .positive (2 ^ 52) (f + 1) (by decide) := by
  have hshift : (max (totalExponent (2 ^ 53) f - 53) (-1074) - f).toNat = 1 := by
    rw [totalExponent, Nat.log2_two_pow]
    omega
  have hlast : shiftToTargetExponent .binary64 (2 ^ 53) f .exact =
      (ExtendedMantissa.ofMantissaAndAccuracy (2 ^ 52) .exact, f + 1) := by
    simp only [shiftToTargetExponent, shiftToExponent, targetExponent_binary64, hshift]
    rfl
  unfold roundWithAccuracy
  rw [hfirst]
  dsimp only
  rw [hcarry, hlast]
  rfl

/-- A significand is rounded to a canonical number with the value that is left of it. -/
theorem exists_rounded (hm : m ≠ 0) (hn : max (totalExponent m e - 53) (-1074) = e + n) :
    ∃ u, roundWithAccuracy .binary64 .positive m e .exact = u ∧ Canonical u ∧ Unsigned u ∧
      value? u = some ((roundedOff m n : Rat) * 2 ^ (e + n)) := by
  have hfirst : shiftToTargetExponent .binary64 m e .exact =
      (ExtendedMantissa.ofMantissaAndAccuracy m .exact >>> n, e + n) := by
    simp only [shiftToTargetExponent, shiftToExponent, targetExponent_binary64, hn,
      show (e + n - e).toNat = n by omega]
  have hleast : -1074 ≤ e + n := by omega
  rcases Nat.lt_or_eq_of_le (roundedOff_le_limit hn) with hfits | hcarry
  · have hround := roundWithAccuracy_of_fits hfirst (r := roundedOff m n) rfl hfits hleast
    refine ⟨_, hround, ?_⟩
    by_cases hzero : roundedOff m n = 0
    · rw [dif_pos hzero]
      exact ⟨trivial, trivial, by rw [hzero, Nat.cast_zero, zero_mul]; rfl⟩
    · rw [dif_neg hzero]
      refine ⟨⟨hfits, hleast, ?_⟩, trivial, rfl⟩
      by_cases habove : -1074 < e + n
      · exact .inr (Nat.le_trans (full_div hm hn habove) (div_le_roundedOff m n))
      · exact .inl (by omega)
  · refine ⟨_, roundWithAccuracy_of_carry hfirst hcarry hleast, ?_, trivial, ?_⟩
    · exact ⟨by decide, by omega, .inr (Nat.le_refl _)⟩
    · show some (((2 ^ 52 : Nat) : Rat) * 2 ^ (e + n + 1)) = _
      rw [hcarry, zpow_add_one₀ (by norm_num) (e + n)]
      push_cast
      ring_nf

/-- Rounding passes no number that fits. -/
theorem rounded_passes_none (hm : m ≠ 0)
    (hn : max (totalExponent m e - 53) (-1074) = e + n) (hk : k < 2 ^ 53) (hf : -1074 ≤ f) :
    ((k : Rat) * 2 ^ f ≤ m * 2 ^ e → (k : Rat) * 2 ^ f ≤ roundedOff m n * 2 ^ (e + n)) ∧
      ((m : Rat) * 2 ^ e ≤ k * 2 ^ f → (roundedOff m n : Rat) * 2 ^ (e + n) ≤ k * 2 ^ f) := by
  have hunit : (0 : Rat) < 2 ^ (e + n) := zpow_pos (by norm_num) _
  have hsplit : ∀ i : Nat, (i : Rat) * 2 ^ (e + n) = ((i * 2 ^ n : Nat) : Rat) * 2 ^ e := by
    intro i
    rw [zpow_add₀ (by norm_num)]
    push_cast
    rw [zpow_natCast]
    ring
  have hbase : (0 : Rat) < 2 ^ e := zpow_pos (by norm_num) _
  by_cases hcoarse : e + n ≤ f
  · -- The number lies on the grid that the significand is rounded to.
    obtain ⟨j, hj⟩ := Int.eq_ofNat_of_zero_le (show 0 ≤ f - (e + n) by omega)
    have hgrid : (k : Rat) * 2 ^ f = ((k * 2 ^ j : Nat) : Rat) * 2 ^ (e + n) := by
      rw [show f = j + (e + n) by omega, zpow_add₀ (by norm_num)]
      push_cast
      rw [zpow_natCast]
      ring
    rw [hgrid, mul_le_mul_iff_left₀ hunit, mul_le_mul_iff_left₀ hunit, hsplit,
      mul_le_mul_iff_left₀ hbase, mul_le_mul_iff_left₀ hbase]
    exact_mod_cast And.intro (le_roundedOff (k := k * 2 ^ j)) (roundedOff_le (k := k * 2 ^ j))
  · -- The number is finer than the grid, so that it lies below all full significands.
    have hfull := full_div hm hn (by omega)
    have hbelow : ∀ i : Nat, m / 2 ^ n ≤ i → (k : Rat) * 2 ^ f < i * 2 ^ (e + n) := fun i hi =>
      size_lt_size hk (Nat.le_trans hfull hi) (by omega)
    refine ⟨fun _ => (hbelow _ (div_le_roundedOff m n)).le, fun hle => ?_⟩
    have hdiv : ((m / 2 ^ n : Nat) : Rat) * 2 ^ (e + n) ≤ m * 2 ^ e := by
      rw [hsplit, mul_le_mul_iff_left₀ hbase]
      exact_mod_cast Nat.div_mul_le_self m (2 ^ n)
    exact absurd (hdiv.trans hle) (not_le.2 (hbelow _ (Nat.le_refl _)))

/-! ## Products -/

/-- A finite number above zero, unpacked. -/
theorem exists_finite {x : Float} {p : Rat} (hx : Scalar.toRat? x = some p) (hp : 0 < p) :
    ∃ m e, ∃ hm : 0 < m, x.toModel.unpack = .finite .positive m e hm ∧ p = m * 2 ^ e ∧
      (m < 2 ^ 53 ∧ -1074 ≤ e ∧ (e = -1074 ∨ 2 ^ 52 ≤ m)) ∧ e ≤ 971 := by
  have hcanonical := canonical_unpack x
  have hbounded : Confined 971 x.toModel.unpack :=
    bounded_of_isFinite (Option.isSome_iff_exists.2 ⟨p, hx⟩)
  rw [toRat?_eq_value?] at hx
  generalize x.toModel.unpack = u at *
  rcases u with _ | _ | _ | ⟨_ | _, m, e, hm⟩ <;> cases hx
  · exact absurd hp (lt_irrefl 0)
  · have hsize : (0 : Rat) < m * 2 ^ e := by positivity
    linarith
  · exact ⟨m, e, hm, rfl, rfl, hcanonical, hbounded.2⟩

/-- The exponent that a product of canonical significands is rounded to is not below its own. -/
theorem exists_shift {m m' : Nat} {e e' : Int} (hm : 0 < m) (hm' : 0 < m')
    (hc : e = -1074 ∨ 2 ^ 52 ≤ m) (hc' : e' = -1074 ∨ 2 ^ 52 ≤ m') :
    ∃ n : Nat, max (totalExponent (m * m') (e + e') - 53) (-1074) = e + e' + n := by
  refine (Int.le.dest ?_).imp fun n hn => hn.symm
  have hpos : m * m' ≠ 0 := Nat.mul_ne_zero hm.ne' hm'.ne'
  have hlong : 2 ^ 52 ≤ m * m' → e + e' ≤ totalExponent (m * m') (e + e') - 53 := by
    intro h
    have := (Nat.le_log2 hpos).2 h
    unfold totalExponent
    omega
  rcases hc with rfl | hc
  · rcases hc' with rfl | hc'
    · omega
    · have := hlong (Nat.le_trans hc' (Nat.le_mul_of_pos_left m' hm))
      omega
  · have := hlong (Nat.le_trans hc (Nat.le_mul_of_pos_right m hm'))
    omega

variable {x y z : Float} {p q r : Rat}

/-- A product of positive numbers is infinite, or has the value of the rounded significand. -/
theorem mul_cases (hx : Scalar.toRat? x = some p) (hy : Scalar.toRat? y = some q) (hp : 0 < p)
    (hq : 0 < q) : ∃ m n e, m ≠ 0 ∧ max (totalExponent m e - 53) (-1074) = e + (n : Nat) ∧
      p * q = m * 2 ^ e ∧
      (Scalar.toRat? (x * y) = some ((roundedOff m n : Rat) * 2 ^ (e + n)) ∨
        Ample .positive 972 (x * y).toModel.unpack ∧
          ((2 ^ 52 : Nat) : Rat) * 2 ^ (972 : Int) ≤ (roundedOff m n : Rat) * 2 ^ (e + n)) := by
  obtain ⟨m, e, hm, hux, hpvalue, hc, -⟩ := exists_finite hx hp
  obtain ⟨m', e', hm', huy, hqvalue, hc', -⟩ := exists_finite hy hq
  obtain ⟨n, hn⟩ := exists_shift hm hm' hc.2.2 hc'.2.2
  have hpos : m * m' ≠ 0 := Nat.mul_ne_zero hm.ne' hm'.ne'
  obtain ⟨u, hround, hcanonical, hunsigned, hvalue⟩ := exists_rounded hpos hn
  have hproduct : (x * y).toModel.unpack = unpack .binary64 (pack .binary64 u) := by
    rw [← hround]
    show unpack .binary64 (pack .binary64 (mul .binary64 x.toModel.unpack y.toModel.unpack)) = _
    rw [hux, huy]
    rfl
  refine ⟨m * m', n, e + e', hpos, hn, ?_, ?_⟩
  · rw [hpvalue, hqvalue, zpow_add₀ (by norm_num)]
    push_cast
    ring
  · by_cases hconfined : Confined 971 u
    · left
      rw [toRat?_eq_value?, hproduct, unpack_pack hcanonical hconfined, hvalue]
    · right
      rcases u with _ | _ | _ | ⟨_ | _, k, f, hk⟩
      case finite.positive =>
        have hf : 971 < f := by
          by_contra hle
          exact hconfined ⟨hcanonical.1, by omega⟩
        have hfull : 2 ^ 52 ≤ k := hcanonical.2.2.resolve_left (by omega)
        have hample : Ample .positive 972 (.finite .positive k f hk) :=
          ⟨rfl, hfull, hcanonical.1, by omega⟩
        refine ⟨hproduct ▸ ample_unpack_pack hample (by decide), ?_⟩
        rw [← Option.some.inj hvalue]
        have hstep : (2 : Rat) ^ (972 : Int) ≤ 2 ^ f := zpow_le_zpow_right₀ (by norm_num) (by omega)
        have hlow : ((2 ^ 52 : Nat) : Rat) ≤ k := Nat.cast_le.2 hfull
        gcongr
      case finite.negative => exact hunsigned.elim
      case zero => exact absurd trivial hconfined
      all_goals cases hvalue

theorem not_lt_of_ample (hx : Ample .positive 972 x.toModel.unpack)
    (hz : Scalar.toRat? z = some r) (hr : 0 < r) : ¬ x < z := by
  obtain ⟨k, f, hk, huz, -, -, hf⟩ := exists_finite hz hr
  rw [lt_iff, huz]
  rintro ⟨a, b, ha, hb, hbefore⟩
  cases hb
  obtain hu | ⟨m, e, hm, hu, -, -, he⟩ := ample_cases hx <;> rw [hu] at ha <;> cases ha
  · simp [Before] at hbefore
  · simp only [Before, true_and] at hbefore
    omega

/-- A number up to the exact product is up to the rounded one, and so for numbers from it on. -/
theorem mul_passes_none (hx : Scalar.toRat? x = some p) (hy : Scalar.toRat? y = some q)
    (hz : Scalar.toRat? z = some r) (hp : 0 < p) (hq : 0 < q) (hr : 0 < r) :
    (r ≤ p * q → ¬ x * y < z) ∧ (p * q ≤ r → ¬ z < x * y) := by
  obtain ⟨m, n, e, hm, hn, hexact, hproduct⟩ := mul_cases hx hy hp hq
  obtain ⟨k, f, hk, huz, hrvalue, hc, hf⟩ := exists_finite hz hr
  obtain ⟨hbelow, habove⟩ := rounded_passes_none hm hn hc.1 hc.2.1
  rw [hexact, hrvalue]
  rcases hproduct with hfinite | ⟨hample, hlarge⟩
  · rw [lt_iff_lt hfinite hz, lt_iff_lt hz hfinite, not_lt, not_lt, hrvalue]
    exact ⟨hbelow, habove⟩
  · refine ⟨fun _ => not_lt_of_ample hample hz hr, fun hle => ?_⟩
    have hsmall : (k : Rat) * 2 ^ f < (2 ^ 52 : Nat) * 2 ^ (972 : Int) :=
      size_lt_size hc.1 (Nat.le_refl _) (by omega)
    exact absurd (hlarge.trans (habove hle)) (not_le.2 hsmall)

theorem isUndefined_mul (hx : Scalar.toRat? x = some p) (hy : Scalar.toRat? y = some q)
    (hp : 0 < p) (hq : 0 < q) : Scalar.isUndefined (x * y) = false := by
  obtain ⟨m, n, e, -, -, -, hfinite | ⟨hample, -⟩⟩ := mul_cases hx hy hp hq
  · exact isUndefined_of_isFinite (Option.isSome_iff_exists.2 ⟨_, hfinite⟩)
  · refine isUndefined_eq_false_iff.2 ?_
    obtain hu | ⟨m, e, hm, hu, -⟩ := ample_cases hample <;> rw [hu] <;> exact ⟨_, rfl⟩

theorem value?_mul_of_right {u v : UnpackedFloat} (hv : value? v = none) :
    value? (mul .binary64 u v) = none := by
  rcases v with s | _ | _ | ⟨_ | _, m, e, hm⟩
  case infinity => cases u <;> rfl
  case notANumber => cases u <;> rfl
  all_goals cases hv

theorem value?_unpack_pack_of_none {u : UnpackedFloat} (hu : value? u = none) :
    value? (unpack .binary64 (pack .binary64 u)) = none := by
  rcases u with s | _ | _ | ⟨_ | _, m, e, hm⟩
  case infinity => cases s <;> rfl
  case notANumber => rfl
  all_goals cases hu

/-- An operand without a value is finite where the result is, if it leaves the result none. -/
theorem isFinite_of_result {u : UnpackedFloat}
    (hz : z.toModel.unpack = unpack .binary64 (pack .binary64 u))
    (hu : value? x.toModel.unpack = none → value? u = none) (h : Scalar.isFinite z = true) :
    Scalar.isFinite x = true := by
  rw [Scalar.isFinite, toRat?_eq_value?] at h ⊢
  by_contra hx
  rw [hz, value?_unpack_pack_of_none (hu (Option.not_isSome_iff_eq_none.1 hx))] at h
  cases h

/-- A factor that is not finite leaves no product finite. -/
theorem isFinite_of_mul (h : Scalar.isFinite (x * y) = true) : Scalar.isFinite y = true :=
  isFinite_of_result (z := x * y) rfl value?_mul_of_right h

/-- A factor from one on makes no number smaller. -/
theorem not_mul_lt_self (hx : Scalar.toRat? x = some p) (hy : Scalar.toRat? y = some q)
    (hp : 0 < p) (hq : 1 ≤ q) : ¬ x * y < x :=
  (mul_passes_none hx hy hx hp (by linarith) hp).1 (le_mul_of_one_le_right hp.le hq)

/-- A factor up to one makes no number larger. -/
theorem not_lt_mul_self (hx : Scalar.toRat? x = some p) (hy : Scalar.toRat? y = some q)
    (hp : 0 < p) (hq : 0 < q) (hone : q ≤ 1) : ¬ x < x * y :=
  (mul_passes_none hx hy hx hp hq hp).2 (mul_le_of_le_one_right hp.le hone)

end Storyboard.Binary
