import Storyboard.Proofs.Binary.Sign
/-!
# The size of binary numbers

A number is modest when it is confined and has no minus sign.  Sums, products and halves of modest
numbers are modest, so they are neither infinite nor negative.
-/

namespace Storyboard.Binary

open Float.Model (UnpackedFloat)
open Float.Model.UnpackedFloat

/-- Zero or a positive number, with an exponent up to `k`. -/
def Modest (k : Int) : UnpackedFloat → Prop
  | .zero .positive => True
  | .finite .positive m e _ => m < 2 ^ 53 ∧ e ≤ k
  | _ => False

instance (k : Int) : DecidablePred (Modest k)
  | .zero .positive => .isTrue trivial
  | .finite .positive m e _ => inferInstanceAs (Decidable (m < 2 ^ 53 ∧ e ≤ k))
  | .zero .negative | .finite .negative _ _ _ | .infinity _ | .notANumber => .isFalse id

theorem modest_cases {k : Int} {a : UnpackedFloat} (h : Modest k a) :
    a = .zero .positive ∨ ∃ m e, ∃ hm : 0 < m, a = .finite .positive m e hm ∧ m < 2 ^ 53 ∧
      e ≤ k := by
  rcases a with _ | _ | (_ | _) | ⟨_ | _, m, e, hm⟩
  case zero.positive => exact .inl rfl
  case finite.positive => exact .inr ⟨m, e, hm, rfl, h⟩
  all_goals exact h.elim

theorem modest_iff {k : Int} {u : UnpackedFloat} : Modest k u ↔ Confined k u ∧ Unsigned u := by
  constructor
  · intro h
    obtain rfl | ⟨m, e, hm, rfl, hsize⟩ := modest_cases h
    · exact ⟨trivial, trivial⟩
    · exact ⟨hsize, trivial⟩
  · rintro ⟨hconfined, hunsigned⟩
    obtain ⟨_ | _, rfl⟩ | ⟨_ | _, m, e, hm, rfl, hsize⟩ := confined_cases hconfined
    · exact hunsigned.elim
    · trivial
    · exact hunsigned.elim
    · exact hsize

/-! ## Numbers -/

/-- Zero or a positive number, with an exponent up to `k`. -/
def Moderate (k : Int) (x : Float) : Prop := Modest k x.toModel.unpack

instance (k : Int) : DecidablePred (Moderate k) := fun x =>
  inferInstanceAs (Decidable (Modest k x.toModel.unpack))

theorem moderate_iff {k : Int} {x : Float} :
    Moderate k x ↔ Bounded k x ∧ Unsigned x.toModel.unpack :=
  modest_iff

theorem moderate_mul {j k : Int} {x y : Float} (hx : Moderate j x) (hy : Moderate k y)
    (hlow : -1127 ≤ j + k) (hhigh : j + k + 54 ≤ 971) : Moderate (j + k + 54) (x * y) := by
  obtain ⟨hx, hx'⟩ := moderate_iff.1 hx
  obtain ⟨hy, hy'⟩ := moderate_iff.1 hy
  exact moderate_iff.2 ⟨bounded_mul hx hy hlow hhigh, unsigned_unpack_pack (unsigned_mul hx' hy')⟩

theorem moderate_add {k : Int} {x y : Float} (hx : Moderate k x) (hy : Moderate k y)
    (hlow : -1075 ≤ k) (hhigh : k + 2 ≤ 971) : Moderate (k + 2) (x + y) := by
  obtain ⟨hx, hx'⟩ := moderate_iff.1 hx
  obtain ⟨hy, hy'⟩ := moderate_iff.1 hy
  exact moderate_iff.2 ⟨bounded_add hx hy hlow hhigh, unsigned_unpack_pack (unsigned_add hx' hy')⟩

theorem unpack_two :
    (2.0 : Float).toModel.unpack = .finite .positive (2 ^ 52) (-51) (by decide) :=
  rfl

theorem moderate_half {k : Int} {x : Float} (hx : Moderate k x) (hlow : -1073 ≤ k)
    (hhigh : k ≤ 971) : Moderate k (x / 2.0) := by
  obtain ⟨hx, hx'⟩ := moderate_iff.1 hx
  have hbounded := bounded_div unpack_two (Nat.le_refl _) hx (by omega) (by omega)
  rw [show k - -51 - 51 = k by omega] at hbounded
  exact moderate_iff.2 ⟨hbounded, unsigned_unpack_pack (unsigned_div hx' (by decide))⟩

theorem positive_cases {u : UnpackedFloat} {q : Int × Int × Int} (hq : rank? u = some q)
    (hpos : Before (0, 0, 0) q) :
    u = .infinity .positive ∧ q = (2, 0, 0) ∨
      ∃ m e, ∃ hm : 0 < m, u = .finite .positive m e hm ∧ q = (1, e, (m : Int)) := by
  rcases u with (_ | _) | _ | _ | ⟨_ | _, m, e, hm⟩ <;> cases hq
  case infinity.positive => exact .inl ⟨rfl, rfl⟩
  case finite.positive => exact .inr ⟨m, e, hm, rfl, rfl⟩
  all_goals simp [Before] at hpos

/-- A positive number that is not above a moderate one is moderate. -/
theorem moderate_of_not_lt {k : Int} {x high : Float} (hpos : (0.0 : Float) < x)
    (hhigh : Moderate k high) (hle : ¬ high < x) : Moderate k x := by
  obtain ⟨p, q, hp, hq, hpq⟩ := lt_iff.1 hpos
  rw [rank?_zero, Option.some.injEq] at hp
  subst hp
  have hbelow : ∀ r, rank? high.toModel.unpack = some r → ¬ Before r q :=
    fun r hr hbefore => hle (lt_iff.2 ⟨r, q, hr, hq, hbefore⟩)
  unfold Moderate at *
  obtain ⟨hx, rfl⟩ | ⟨m, e, hm, hx, rfl⟩ := positive_cases hq hpq
  · obtain hu | ⟨m', e', hm', hu, -, he'⟩ := modest_cases hhigh
    · have := hbelow (0, 0, 0) (by rw [hu]; rfl)
      simp [Before] at this
    · have := hbelow (1, e', m') (by rw [hu]; rfl)
      simp [Before] at this
  · rw [hx]
    refine ⟨significand_lt x hx, ?_⟩
    obtain hu | ⟨m', e', hm', hu, -, he'⟩ := modest_cases hhigh
    · have := hbelow (0, 0, 0) (by rw [hu]; rfl)
      simp [Before] at this
    · have := hbelow (1, e', m') (by rw [hu]; rfl)
      simp only [Before, true_and] at this
      omega

theorem pos_of_moderate_lt {k : Int} {x y : Float} (hx : Moderate k x) (h : x < y) :
    (0.0 : Float) < y := by
  obtain ⟨p, q, hp, hq, hpq⟩ := lt_iff.1 h
  refine lt_iff.2 ⟨_, q, rank?_zero, hq, ?_⟩
  unfold Moderate at hx
  obtain hu | ⟨m, e, hm, hu, -, -⟩ := modest_cases hx
  · rw [hu] at hp
    cases hp
    exact hpq
  · rw [hu] at hp
    cases hp
    simp only [Before] at hpq ⊢
    omega

theorem not_lt_zero_of_moderate {k : Int} {x : Float} (h : Moderate k x) : ¬ x < 0.0 :=
  not_lt_zero_of_unsigned (moderate_iff.1 h).2

theorem isFinite_of_moderate {k : Int} {x : Float} (h : Moderate k x) :
    Scalar.isFinite x = true :=
  isFinite_of_bounded (moderate_iff.1 h).1

end Storyboard.Binary
