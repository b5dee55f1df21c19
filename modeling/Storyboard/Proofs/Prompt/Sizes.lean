import Storyboard.Placement
import Storyboard.Proofs.Prompt.Counting
import Storyboard.Proofs.Prompt.Tempered
/-!
# Sizes that a prompt asks for

Whatever a prompt says, what is read from it is in range: shares up to one, a count up to the most
that one prompt creates, and measures that are proper.  The measures of a new element are those that
the prompt asks for, and proper shares of the artboard for the rest.
-/

namespace Storyboard

open Binary (Proper proper_mul proper_min proper_of_lt)

/-- What is read from a prompt is in range. -/
structure Features.Ranging (f : Features Float) : Prop where
  opacity : ∀ x, f.opacity = some x → Proper x ∧ x ≤ 1.0
  count : 1 ≤ f.count ∧ f.count ≤ 12
  counted : ∀ before ds, Measure.Counts f.text.toList before ds →
    (∀ before' ds', Measure.Counts f.text.toList before' ds' → before.length ≤ before'.length) →
    f.count = max 1 (min 12 (Measure.digitsValue ds))
  strokeWidth : ∀ x, f.strokeWidth = some x → Proper x
  fontSize : ∀ x, f.fontSize = some x → Proper x
  duration : ∀ x, f.duration = some x → Proper x
  playbackSpeed : ∀ x, f.playbackSpeed = some x → Proper x

/-- The known measures are proper. -/
structure Extent.Proper (e : Extent Float) : Prop where
  r : ∀ x, e.r = some x → Binary.Proper x
  width : ∀ x, e.width = some x → Binary.Proper x
  height : ∀ x, e.height = some x → Binary.Proper x

/-- The measures of one extent are measures of another. -/
structure Extent.Keeps (e asked : Extent Float) : Prop where
  r : ∀ x, asked.r = some x → e.r = some x
  width : ∀ x, asked.width = some x → e.width = some x
  height : ∀ x, asked.height = some x → e.height = some x

namespace Extent

theorem proper_empty : Extent.Proper {} := ⟨nofun, nofun, nofun⟩

theorem proper_radius {r : Float} (h : Binary.Proper r) : Extent.Proper { r := some r } :=
  ⟨by rintro x ⟨⟩; exact h, nofun, nofun⟩

theorem proper_box {width height : Float} (hwidth : Binary.Proper width)
    (hheight : Binary.Proper height) :
    Extent.Proper { width := some width, height := some height } :=
  ⟨nofun, by rintro x ⟨⟩; exact hwidth, by rintro x ⟨⟩; exact hheight⟩

end Extent

theorem Measure.proper_of_map {q? : Option Quantity} {x : Float}
    (h : q?.map Quantity.value = some x) : Proper x := by
  obtain ⟨q, -, rfl⟩ := Option.map_eq_some_iff.1 h
  exact proper_value q

theorem proper_getD {x? : Option Float} {d : Float} (h : ∀ x, x? = some x → Proper x)
    (hd : Proper d) : Proper (x?.getD d) := by
  cases x? with
  | none => exact hd
  | some x => exact h x rfl

namespace Features

theorem ranging_of_ofText {raw : String} {f : Features Float} (hraw : Text.ShortRuns raw.toList)
    (h : ofText raw = .ok f) : f.Ranging := by
  have hrange := count_range h
  unfold ofText at h
  obtain ⟨count, hcount, rfl⟩ := map_eq_ok_iff.1 h
  constructor
  case opacity =>
    intro x hx
    dsimp only at hx
    exact Measure.share_opacity hx
  case count => exact hrange
  case counted =>
    dsimp only
    intro before ds hds hfirst
    have hlength : ds.length ≤ Fault.digitLimit := by
      obtain ⟨-, hdigits, blanks, noun, after, hsplit, -, -⟩ := hds
      refine shortRuns_normalize hraw ds ⟨before, blanks ++ noun.toList ++ after, ?_⟩ hdigits
      simp [hsplit]
    have hfound := Measure.count_eq_of_first hlength hds hfirst
    rw [hcount] at hfound
    exact Except.ok.inj hfound
  all_goals
    intro x hx
    dsimp only at hx
    exact Measure.proper_of_map hx

section

variable {f : Features Float} {board : Artboard Float}

theorem proper_minDim (hwidth : 0.0 < board.width) (hheight : 0.0 < board.height) :
    Proper board.minDim := by
  have hzero : Proper 0.0 := Binary.proper_numeral _ _ _
  exact proper_min (proper_of_lt hzero hwidth) (proper_of_lt hzero hheight)

theorem proper_explicitExtent (kind : String) (hdim : Proper board.minDim) :
    (f.explicitExtent kind board).Proper := by
  have hbase : Proper (board.minDim * 0.18) := proper_mul hdim (by decide)
  unfold explicitExtent
  dsimp only
  split
  · split
    · rename_i r hr
      exact Extent.proper_radius (Measure.proper_of_map hr)
    · split
      · exact Extent.proper_radius (proper_mul hdim (by decide))
      · split
        · exact Extent.proper_radius hbase
        · exact Extent.proper_empty
  · split
    · split
      · rename_i side hside
        exact Extent.proper_box (Measure.proper_of_map hside) (Measure.proper_of_map hside)
      · split
        · exact ⟨nofun, fun x hx => Measure.proper_of_map hx, fun x hx => Measure.proper_of_map hx⟩
        · split
          · exact Extent.proper_box hbase (proper_mul hbase (by decide))
          · split
            · exact Extent.proper_box (proper_mul hbase (by decide)) (proper_mul hbase (by decide))
            · exact Extent.proper_empty
    · exact Extent.proper_empty

theorem proper_extentFor (kind : String) (hdim : Proper board.minDim) :
    (f.extentFor kind board).Proper := by
  have hasked : (f.explicitExtent kind board).Proper := proper_explicitExtent kind hdim
  have hbase : Proper (board.minDim * 0.18) := proper_mul hdim (by decide)
  unfold extentFor
  dsimp only
  split
  · refine ⟨?_, hasked.width, hasked.height⟩
    rintro x ⟨⟩
    exact proper_getD hasked.r (proper_mul hdim (by decide))
  · split
    · refine ⟨hasked.r, ?_, ?_⟩
      · rintro x ⟨⟩
        exact proper_getD hasked.width (proper_mul hbase (by decide))
      · rintro x ⟨⟩
        exact proper_getD hasked.height hbase
    · exact hasked

theorem keeps_extentFor (f : Features Float) (kind : String) (board : Artboard Float) :
    (f.extentFor kind board).Keeps (f.explicitExtent kind board) := by
  unfold extentFor
  dsimp only
  split
  · exact ⟨fun x hx => by simp [hx], fun x hx => hx, fun x hx => hx⟩
  · split
    · exact ⟨fun x hx => hx, fun x hx => by simp [hx], fun x hx => by simp [hx]⟩
    · exact ⟨fun x hx => hx, fun x hx => hx, fun x hx => hx⟩

end

end Features

end Storyboard
