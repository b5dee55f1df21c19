import Storyboard.Proofs.Binary.Size
/-!
# Room for arithmetic

Numbers between `-1e100` and `1e100` are ordinary.  Each step of arithmetic on them, with small
constants beside them, takes up some room in the exponent; ten steps are finite whatever they are.
-/

namespace Storyboard

/-- Neither infinite nor undefined, nor further from zero than `1e100`. -/
def Ordinary (x : Float) : Prop := -1e100 ≤ x ∧ x ≤ 1e100

instance : DecidablePred Ordinary := fun _ => inferInstanceAs (Decidable (_ ∧ _))

/-- A small constant. -/
def Slight (c : Float) : Prop := Binary.Bounded 7 c

instance : DecidablePred Slight := fun _ => inferInstanceAs (Decidable (Binary.Bounded _ _))

/-- A full significand, and an exponent that is neither small nor large. -/
def Binary.Even : Float.Model.UnpackedFloat → Prop
  | .finite _ m e _ => 2 ^ 52 ≤ m ∧ -60 ≤ e ∧ e ≤ 0
  | _ => False

instance : DecidablePred Binary.Even
  | .finite _ m e _ => inferInstanceAs (Decidable (2 ^ 52 ≤ m ∧ -60 ≤ e ∧ e ≤ 0))
  | .zero _ | .infinity _ | .notANumber => .isFalse id

/-- A constant to divide by. -/
def Divisor (c : Float) : Prop := Binary.Even c.toModel.unpack

instance : DecidablePred Divisor := fun _ => inferInstanceAs (Decidable (Binary.Even _))

/-- A number that is up to `n` steps of arithmetic away from ordinary ones. -/
def Tame (n : Nat) (x : Float) : Prop := n ≤ 10 → Binary.Bounded (280 + 64 * n) x

namespace Binary

open Float.Model (UnpackedFloat)

theorem ne_notANumber_of_le {x y : Float} (h : x ≤ y) : x.toModel.unpack ≠ .notANumber := by
  intro hx
  have hle : (x.toModel.unpack.compare y.toModel.unpack).any (·.isLE) = true := by
    have hmodel : x.toModel ≤ y.toModel := of_decide_eq_true h
    exact hmodel
  rw [hx] at hle
  cases hle

theorem rank?_googol :
    rank? (1e100 : Float).toModel.unpack = some (1, 280, 5147557589468029) ∧
      rank? (-1e100 : Float).toModel.unpack = some (-1, -280, -5147557589468029) := by
  decide +kernel

theorem bounded_of_ordinary {x : Float} (h : Ordinary x) : Bounded 280 x := by
  obtain ⟨hlow, hhigh⟩ := h
  have hnan := ne_notANumber_of_le hhigh
  have hbelow := not_lt_of_le hlow
  have habove := not_lt_of_le hhigh
  have hrank : ∀ p, rank? x.toModel.unpack = some p →
      ¬ Before (1, 280, 5147557589468029) p ∧ ¬ Before p (-1, -280, -5147557589468029) :=
    fun p hp => ⟨fun hb => habove (lt_iff.2 ⟨_, p, rank?_googol.1, hp, hb⟩),
      fun hb => hbelow (lt_iff.2 ⟨p, _, hp, rank?_googol.2, hb⟩)⟩
  unfold Bounded
  cases hx : x.toModel.unpack with
  | notANumber => exact absurd hx hnan
  | zero s => trivial
  | infinity s =>
    exfalso
    cases s with
    | positive => simpa [Before] using (hrank (2, 0, 0) (by rw [hx]; rfl)).1
    | negative => simpa [Before] using (hrank (-2, 0, 0) (by rw [hx]; rfl)).2
  | finite s m e hm =>
    refine ⟨significand_lt x hx, ?_⟩
    cases s with
    | positive =>
      have := (hrank (1, e, m) (by rw [hx]; rfl)).1
      simp only [Before, true_and] at this
      omega
    | negative =>
      have := (hrank (-1, -e, -m) (by rw [hx]; rfl)).2
      simp only [Before, true_and] at this
      omega

theorem bounded_ofNat {n : Nat} (hn : n < 2 ^ 53) : Bounded 3 (Scalar.ofNat n) := by
  show Bounded 3 (Float.ofScientific n false 0)
  unfold Float.ofScientific
  rw [dif_pos ⟨hn, Nat.zero_le 22⟩]
  have hword : n.toUInt64.toNat = n := by
    rw [Nat.toUInt64, UInt64.toNat_ofNat']
    omega
  have hdigits : Bounded 1 n.toUInt64.toFloat := by
    have hnormal : Confined (0 + 1) (UnpackedFloat.normalize .binary64 n.toUInt64.toNat 0 .positive) :=
      confined_normalize (b := 53) .positive (by omega) (by omega) (by omega) (by omega)
    exact confined_unpack_pack hnormal (by omega) (by omega)
  have hone : Bounded (-52) Float.exactlyRepresentablePowersOfTen[0] := by decide
  exact confined_mono (bounded_mul hdigits hone (by omega) (by omega)) (by omega)

end Binary

open Binary

theorem slight_ofNat {n : Nat} (hn : n < 2 ^ 53) : Slight (Scalar.ofNat n) :=
  confined_mono (bounded_ofNat hn) (by omega)

theorem Ordinary.tame {x : Float} (h : Ordinary x) : Tame 0 x :=
  fun _ => bounded_of_ordinary h

theorem Slight.tame {c : Float} (h : Slight c) : Tame 0 c :=
  fun _ => confined_mono h (by omega)

namespace Tame

variable {m n : Nat} {x y c : Float}

theorem mono (h : Tame m x) (hmn : m ≤ n) : Tame n x :=
  fun hn => confined_mono (h (by omega)) (by omega)

theorem zero : Tame n 0.0 := by
  have hzero : Slight 0.0 := by decide
  exact hzero.tame.mono (Nat.zero_le n)

theorem ite {c : Prop} [Decidable c] (hx : Tame n x) (hy : Tame n y) :
    Tame n (if c then x else y) := by
  split
  · exact hx
  · exact hy

theorem finite (h : Tame n x) (hn : n ≤ 10) : Scalar.isFinite x = true :=
  isFinite_of_bounded (h hn)

theorem share (h : Tame n x) (hc : Slight c) : Tame (n + 1) (x * c) := fun hn => by
  have hmul := bounded_mul (h (by omega)) hc (by omega) (by omega)
  exact confined_mono hmul (by omega)

theorem times (hc : Slight c) (h : Tame n x) : Tame (n + 1) (c * x) := fun hn => by
  have hmul := bounded_mul hc (h (by omega)) (by omega) (by omega)
  exact confined_mono hmul (by omega)

theorem add (hx : Tame m x) (hy : Tame n y) : Tame (max m n + 1) (x + y) := fun hn => by
  have hsum := bounded_add (hx.mono (Nat.le_max_left m n) (by omega))
    (hy.mono (Nat.le_max_right m n) (by omega)) (by omega) (by omega)
  exact confined_mono hsum (by omega)

theorem sub (hx : Tame m x) (hy : Tame n y) : Tame (max m n + 1) (x - y) := fun hn => by
  have hdifference := bounded_sub (hx.mono (Nat.le_max_left m n) (by omega))
    (hy.mono (Nat.le_max_right m n) (by omega)) (by omega) (by omega)
  exact confined_mono hdifference (by omega)

theorem neg (h : Tame n x) : Tame n (-x) :=
  fun hn => bounded_neg (h hn) (by omega) (by omega)

theorem quotient (h : Tame n x) (hc : Divisor c) : Tame (n + 1) (x / c) := fun hn => by
  unfold Divisor at hc
  cases hunpack : c.toModel.unpack with
  | finite s m e hm =>
    rw [hunpack] at hc
    obtain ⟨hfull, hlow, hhigh⟩ := hc
    exact confined_mono (bounded_div hunpack hfull (h (by omega)) (by omega) (by omega))
      (by omega)
  | zero | infinity | notANumber =>
    rw [hunpack] at hc
    exact hc.elim

/-- Whatever is moved into a small range is tame. -/
theorem clamp {low high : Float} (hlow : Moderate 7 low) (hhigh : Moderate 7 high)
    (hle : ¬ high < low) (x : Float) : Tame 0 (Scalar.clamp x low high) := by
  refine Slight.tame (moderate_iff.1 ?_).1
  rcases max_eq_or_lt low (Scalar.min high x) with heq | hlt
  · rw [Scalar.clamp, heq]
    exact hlow
  · have hself : ¬ high < high := fun h => not_lt_of_lt h h
    exact moderate_of_not_lt (pos_of_moderate_lt hlow hlt) hhigh (not_lt_clamp hle hself)

theorem min (hx : Tame n x) (hy : Tame n y) : Tame n (Scalar.min x y) :=
  hy.ite hx

theorem max (hx : Tame n x) (hy : Tame n y) : Tame n (Scalar.max x y) :=
  hy.ite hx

end Tame

end Storyboard
