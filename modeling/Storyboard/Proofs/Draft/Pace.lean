import Storyboard.Plan
import Storyboard.Proofs.Draft.Fits
/-!
# Times that can be set

All times of keyframes are shares of a plan's duration or of a photo's, and the beats are made of
such shares.  As long as the duration has an exponent with some room above it, each of them is
finite and not negative.
-/

namespace Storyboard

open Binary (Moderate moderate_mul moderate_add moderate_half)

theorem settable_of_moderate {k : Int} {t : Float} (h : Moderate k t) : Settable t :=
  ⟨Binary.isFinite_of_moderate h, Binary.not_lt_zero_of_moderate h⟩

theorem moderate_max {k : Int} {x y : Float} (hx : Moderate k x) (hy : Moderate k y) :
    Moderate k (Scalar.max x y) := by
  unfold Scalar.max
  split
  · exact hy
  · exact hx

theorem moderate_min {k : Int} {x y : Float} (hx : Moderate k x) (hy : Moderate k y) :
    Moderate k (Scalar.min x y) := by
  unfold Scalar.min
  split
  · exact hy
  · exact hx

/-- The exponent of the longest duration whose shares are all sure to be finite. -/
def roomyExponent : Int := 944

/-- The duration leaves room for its shares. -/
def Roomy (d : Float) : Prop := Moderate roomyExponent d

instance : DecidablePred Roomy := fun d => inferInstanceAs (Decidable (Moderate roomyExponent d))

theorem roomy_of_le {x : Float} (h : Scalar.max Plan.minDuration x ≤ 1e300) :
    Roomy (Scalar.max Plan.minDuration x) := by
  rcases Binary.max_eq_or_lt Plan.minDuration x with heq | hlt
  · rw [heq]
    decide
  · have hpos := Binary.lt_trans (x := 0.0) (by decide) hlt
    exact Binary.moderate_of_not_lt hpos (by decide +kernel) (Binary.not_lt_of_le h)

@[simp] theorem settable_zero : Settable 0.0 :=
  settable_of_moderate (k := 0) (by decide)

namespace Roomy

variable {d : Float}

theorem settable (h : Roomy d) : Settable d := settable_of_moderate h

theorem moderate_share {share : Float} (h : Roomy d) (hshare : Moderate (-53) share) :
    Moderate (roomyExponent + 1) (d * share) :=
  moderate_mul h hshare (by decide) (by decide)

theorem settable_share {share : Float} (h : Roomy d) (hshare : Moderate (-53) share) :
    Settable (d * share) :=
  settable_of_moderate (h.moderate_share hshare)

theorem max_left {least : Float} (h : Roomy d) (hleast : Roomy least) :
    Roomy (Scalar.max least d) :=
  moderate_max hleast h

theorem settable_min {other : Float} (h : Roomy d) (hother : Roomy other) :
    Settable (Scalar.min d other) :=
  settable_of_moderate (moderate_min h hother)

theorem settable_mid (h : Roomy d) : Settable (Beats.ofDuration d).action.mid := by
  have hfirst : Moderate (roomyExponent + 1) (d * 0.25) := h.moderate_share (by decide)
  have hlast : Moderate (roomyExponent + 1) (d * 0.8) := h.moderate_share (by decide)
  have hsum := moderate_add hfirst hlast (by decide) (by decide)
  exact settable_of_moderate (moderate_half hsum (by decide) (by decide))

end Roomy

/-- The times of the beats that keyframes are set at. -/
structure Beats.Paced (b : Beats Float) : Prop where
  start : Settable b.intro.start
  rise : Settable b.intro.finish
  mid : Settable b.action.mid
  settle : Settable b.settle.start
  finish : Settable b.settle.finish

theorem Beats.paced_ofDuration {d : Float} (h : Roomy d) : (Beats.ofDuration d).Paced where
  start := settable_zero
  rise := h.settable_share (by decide)
  mid := h.settable_mid
  settle := h.settable_share (by decide)
  finish := h.settable

end Storyboard
