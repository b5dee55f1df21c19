import Storyboard.Proofs.Binary.Whole
import Storyboard.Proofs.Plan
/-!
# Artboards of plans

No measure of an artboard is zero or less: neither where a request states it nor where the
surroundings do.
-/

namespace Storyboard

variable {α β γ : Type}

/-! ## Checked values -/

namespace Checked

theorem map_eq_valid_iff {f : β → γ} {x : Checked β} {c : γ} :
    x.map f = .valid c ↔ ∃ b, x = .valid b ∧ f b = c := by
  cases x <;> simp [map]

theorem app_eq_valid_iff {f : Checked (β → γ)} {x : Checked β} {c : γ} :
    f.app x = .valid c ↔ ∃ g b, f = .valid g ∧ x = .valid b ∧ g b = c := by
  cases f <;> cases x <;> simp [app]

theorem under_eq_valid_iff {step : Step} {x : Checked β} {b : β} :
    x.under step = .valid b ↔ x = .valid b := by
  cases x <;> simp [under]

end Checked

/-! ## Artboards -/

namespace Request

variable {fields : Fields Float} {value : Value Float} {other : IssueKind}

theorem not_le_of_positive {x : Float} (h : positive value = .valid x) : ¬ x ≤ 0.0 := by
  unfold positive at h
  split at h
  · split at h
    · cases h
    · cases h
      assumption
  · cases h

theorem not_le_of_field {name : String} {absent x : Float} (habsent : ¬ absent ≤ 0.0)
    (h : field fields name (.valid absent) positive = .valid x) : ¬ x ≤ 0.0 := by
  rw [field, Checked.under_eq_valid_iff] at h
  split at h
  · exact not_le_of_positive h
  · cases h
    exact habsent

theorem not_le_of_readArtboard {board : Artboard Float}
    (h : readArtboard other value = .valid board) : ¬ board.width ≤ 0.0 ∧ ¬ board.height ≤ 0.0 := by
  unfold readArtboard at h
  split at h
  · rw [Checked.app_eq_valid_iff] at h
    obtain ⟨mk, height, hmk, hheight, rfl⟩ := h
    obtain ⟨width, hwidth, rfl⟩ := Checked.map_eq_valid_iff.1 hmk
    exact ⟨not_le_of_field (by decide +kernel) hwidth, not_le_of_field (by decide +kernel) hheight⟩
  · cases h

theorem check_of_field {name : String} {check : Value Float → Checked β} {b : β}
    (h : field fields name (.valid none) (optional check) = .valid (some b)) :
    ∃ value, check value = .valid b := by
  rw [field, Checked.under_eq_valid_iff] at h
  split at h
  · rename_i value _
    unfold optional at h
    split at h
    · cases h
    · obtain ⟨c, hc, heq⟩ := Checked.map_eq_valid_iff.1 h
      exact ⟨_, hc.trans (congrArg _ (Option.some.inj heq))⟩
  · cases h

theorem not_le_of_read {r : Request Float} (h : read other fields = .valid r) :
    ∀ board ∈ r.artboard, ¬ board.width ≤ 0.0 ∧ ¬ board.height ≤ 0.0 := by
  simp only [read, Checked.app_eq_valid_iff, Checked.map_eq_valid_iff] at h
  obtain ⟨_, _, ⟨_, _, ⟨_, _, ⟨_, _, ⟨_, _, rfl⟩, hboard, rfl⟩, -, rfl⟩, -, rfl⟩, -, rfl⟩ := h
  rintro board rfl
  obtain ⟨value, hvalue⟩ := check_of_field hboard
  exact not_le_of_readArtboard hvalue

theorem not_le_of_ofValue {r : Request Float} (h : ofValue value = .ok r) :
    ∀ board ∈ r.artboard, ¬ board.width ≤ 0.0 ∧ ¬ board.height ≤ 0.0 := by
  unfold ofValue at h
  split at h
  · cases h
  · split at h
    · rename_i r' hr
      cases h
      exact not_le_of_read hr
    · cases h

end Request

namespace Settings

theorem le_wholeNumber (env : Surroundings) (name : String) {fallback low : Int} (high : Int)
    (h : low ≤ fallback) : low ≤ wholeNumber env name fallback low high := by
  unfold wholeNumber
  split
  · exact Int.le_max_left _ _
  · exact h

theorem wholeNumber_le (env : Surroundings) (name : String) {fallback low high : Int}
    (hlow : low ≤ high) (h : fallback ≤ high) : wholeNumber env name fallback low high ≤ high := by
  unfold wholeNumber
  split
  · exact Int.max_le.2 ⟨hlow, Int.min_le_left _ _⟩
  · exact h

end Settings

namespace Plan

/-- The artboard of a plan is wider and higher than nothing. -/
theorem not_le_of_ofValue {env : Surroundings} {value : Value Float} {p : Plan Float}
    (h : ofValue (Settings.read env) value = .ok p) : ¬ p.width ≤ 0.0 ∧ ¬ p.height ≤ 0.0 := by
  unfold ofValue at h
  split at h
  · cases h
  · rename_i r hr
    split at h
    · cases h
    · rename_i q hq
      cases h
      rw [width, height, (follows_of_ofRequest hq).board]
      cases hboard : r.artboard with
      | some board => exact Request.not_le_of_ofValue hr board hboard
      | none =>
          rw [Option.getD_none, Binary.ofInt_le_zero_iff, Binary.ofInt_le_zero_iff]
          have hwidth : 16 ≤ (Settings.read env : Settings Float).artboardWidth :=
            Settings.le_wholeNumber env _ _ (by decide)
          have hheight : 16 ≤ (Settings.read env : Settings Float).artboardHeight :=
            Settings.le_wholeNumber env _ _ (by decide)
          omega

end Plan

end Storyboard
