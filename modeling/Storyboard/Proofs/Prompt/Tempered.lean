import Storyboard.Prompt.Features
import Storyboard.Proofs.Binary.Proper
import Storyboard.Proofs.Binary.Share
import Storyboard.Proofs.Draft.Fits
import Storyboard.Proofs.Except
/-!
# Quantities in range

What is read from a prompt is in range before the gate sees it: an opacity is moved between zero
and one, and a width is a numeral without a minus sign.
-/

namespace Storyboard

namespace Measure

theorem share_of_not_lt {x : Float} (hx : Binary.Proper x) (h : ¬ 1.0 < x) :
    Binary.Proper x ∧ x ≤ 1.0 :=
  ⟨hx, (Binary.le_iff_not_lt hx.1 (by decide)).2 h⟩

theorem share_clamp (x : Float) :
    Binary.Proper (Scalar.clamp x 0.0 1.0) ∧ Scalar.clamp x 0.0 1.0 ≤ 1.0 :=
  share_of_not_lt (Binary.proper_clamp x 1.0) (Binary.not_lt_clamp (by decide) (by decide))

/-- A percentage moved below a hundred is a share. -/
theorem share_percent (x : Float) : Binary.Proper (Scalar.clamp x 0.0 100.0 / 100.0) ∧
    Scalar.clamp x 0.0 100.0 / 100.0 ≤ 1.0 := by
  refine share_of_not_lt (Binary.proper_div (Binary.proper_clamp x 100.0) (by decide)) ?_
  rcases Binary.max_eq_or_lt 0.0 (Scalar.min 100.0 x) with heq | hpos
  · rw [Scalar.clamp, heq]
    decide
  · exact Binary.not_one_lt_div_hundred hpos (Binary.not_lt_clamp (by decide) (by decide))

/-- An opacity is a share: proper, and at most one. -/
theorem share_opacity {cs : List Char} {x : Float} (h : opacity? cs = some x) :
    Binary.Proper x ∧ x ≤ 1.0 := by
  unfold opacity? at h
  split at h
  · obtain rfl := Option.some.inj h
    exact share_of_not_lt (Binary.proper_numeral _ _ _) (by decide)
  · split at h
    · obtain rfl := Option.some.inj h
      exact share_percent _
    · obtain ⟨q, -, rfl⟩ := Option.map_eq_some_iff.1 h
      exact share_clamp _

theorem proper_value (q : Quantity) : Binary.Proper q.value := Binary.proper_ofDecimal _ _

theorem within_opacity {cs : List Char} {x : Float} (h : opacity? cs = some x) :
    Within "opacity" x := by
  obtain ⟨hx, hle⟩ := share_opacity h
  refine within_of_bounds (b := ⟨0.0, some 1.0⟩) rfl (Binary.not_lt_of_le hx.2) ?_
  rintro high ⟨⟩
  exact Binary.not_lt_of_le hle

theorem within_strokeWidth {cs : List Char} {x : Float} (h : strokeWidth? cs = some x) :
    Within "strokeWidth" x := by
  obtain ⟨q, -, rfl⟩ := Option.map_eq_some_iff.1 h
  exact within_of_bounds (b := ⟨0.0, none⟩) rfl
    (Binary.not_lt_of_le (proper_value q).2) (by simp)

end Measure

/-- The quantities of a prompt that the gate has a range for are in it. -/
structure Features.Tempered (f : Features Float) : Prop where
  opacity : ∀ x, f.opacity = some x → Within "opacity" x
  strokeWidth : ∀ x, f.strokeWidth = some x → Within "strokeWidth" x

theorem Features.tempered_of_ofText {raw : String} {f : Features Float}
    (h : Features.ofText raw = .ok f) : f.Tempered := by
  unfold ofText at h
  obtain ⟨count, -, rfl⟩ := map_eq_ok_iff.1 h
  constructor
  · intro x hx
    dsimp only at hx
    exact Measure.within_opacity hx
  · intro x hx
    dsimp only at hx
    exact Measure.within_strokeWidth hx

end Storyboard
