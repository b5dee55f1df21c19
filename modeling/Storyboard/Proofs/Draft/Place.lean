import Storyboard.Edit
import Storyboard.Proofs.Draft.Room
/-!
# Places and measures that leave room

Direction words and rows of new elements place an element by a few steps of arithmetic from the
artboard and from the measures that a prompt gives.
-/

namespace Storyboard

variable {n : Nat} {board : Artboard Float}

/-! ## Measures -/

/-- The measures that are known leave room. -/
structure Extent.Modest (e : Extent Float) : Prop where
  r : Known 2 e.r
  width : Known 2 e.width
  height : Known 2 e.height

theorem Extent.modest_empty : ({} : Extent Float).Modest := ⟨.none, .none, .none⟩

namespace Features

variable {f : Features Float}

theorem modest_explicitExtent (kind : String) (h : f.Modest) (hwidth : Tame 0 board.width)
    (hheight : Tame 0 board.height) : (f.explicitExtent kind board).Modest := by
  have hshare : ∀ c, Slight c → Tame 1 (board.minDim * c) :=
    fun _ hc => (hwidth.min hheight).share hc
  have hpart : ∀ c c', Slight c → Slight c' → Tame 2 (board.minDim * c * c') :=
    fun c _ hc hc' => (hshare c hc).share hc'
  have hradius : ∀ c, Slight c → ({ r := some (board.minDim * c) } : Extent Float).Modest :=
    fun c hc => ⟨Known.some_iff.2 ((hshare c hc).mono (by omega)), .none, .none⟩
  have hbox : ∀ {width height : Float}, Tame 2 width → Tame 2 height →
      ({ width := some width, height := some height } : Extent Float).Modest :=
    fun hw hh => ⟨.none, Known.some_iff.2 hw, Known.some_iff.2 hh⟩
  unfold explicitExtent
  dsimp only
  split
  · split
    · rename_i r hr
      exact ⟨Known.some_iff.2 ((h.radius r hr).mono (by omega)), .none, .none⟩
    · split
      · exact hradius _ (by decide)
      · split
        · exact hradius _ (by decide)
        · exact Extent.modest_empty
  · split
    · split
      · rename_i side hside
        exact hbox ((h.square side hside).mono (by omega)) ((h.square side hside).mono (by omega))
      · split
        · exact ⟨.none, h.width.mono (by omega), h.height.mono (by omega)⟩
        · split
          · exact hbox ((hshare _ (by decide)).mono (by omega)) (hpart _ _ (by decide) (by decide))
          · split
            · exact hbox (hpart _ _ (by decide) (by decide)) (hpart _ _ (by decide) (by decide))
            · exact Extent.modest_empty
    · exact Extent.modest_empty

theorem modest_extentFor (kind : String) (h : f.Modest) (hwidth : Tame 0 board.width)
    (hheight : Tame 0 board.height) : (f.extentFor kind board).Modest := by
  have hasked := modest_explicitExtent kind h hwidth hheight
  have hshare : ∀ c, Slight c → Tame 1 (board.minDim * c) :=
    fun _ hc => (hwidth.min hheight).share hc
  unfold extentFor
  dsimp only
  split
  · exact ⟨Known.some_iff.2 (hasked.r.getD ((hshare _ (by decide)).mono (by omega))),
      hasked.width, hasked.height⟩
  · split
    · exact ⟨hasked.r, Known.some_iff.2 (hasked.width.getD ((hshare _ (by decide)).share
        (by decide))), Known.some_iff.2 (hasked.height.getD ((hshare _ (by decide)).mono
        (by omega)))⟩
    · exact hasked

end Features

/-! ## Direction words -/

/-- A place that leaves room. -/
def Spotted (n : Nat) (spot : Float × Float) : Prop := Tame n spot.1 ∧ Tame n spot.2

theorem Spotted.mono {m : Nat} {spot : Float × Float} (h : Spotted m spot) (hmn : m ≤ n) :
    Spotted n spot :=
  ⟨h.1.mono hmn, h.2.mono hmn⟩

theorem spotted_ite {c : Prop} [Decidable c] {s t : Float × Float} (hs : Spotted n s)
    (ht : Spotted n t) : Spotted n (if c then s else t) := by
  split
  · exact hs
  · exact ht

theorem spotted_resolvePosition {kind : String} {extent : Extent Float}
    {mentions : Keyword → Bool} {current : Float × Float} (hwidth : Tame 0 board.width)
    (hheight : Tame 0 board.height) (hextent : extent.Modest) (hcurrent : Spotted 5 current) :
    Spotted 5 (resolvePosition kind board extent mentions (some current)) := by
  have hradius : Tame 2 (extent.r.getD 0.0) := hextent.r.getD Tame.zero
  have hbox : Tame 3 (extent.width.getD (extent.r.getD 0.0 * 2.0)) ∧
      Tame 3 (extent.height.getD (extent.r.getD 0.0 * 2.0)) :=
    ⟨(hextent.width.mono (by omega)).getD (hradius.share (by decide)),
      (hextent.height.mono (by omega)).getD (hradius.share (by decide))⟩
  have hpadding : Tame 0 (edgePadding : Float) := by
    have hslight : Slight edgePadding := by decide
    exact hslight.tame
  have hnear : Tame 5 (if kind == "rect" then edgePadding else edgePadding + extent.r.getD 0.0) :=
    Tame.ite (hpadding.mono (by omega)) ((hpadding.add hradius).mono (by omega))
  have hfar : ∀ {length box : Float}, Tame 0 length → Tame 3 box →
      Tame 5 (if kind == "rect" then length - box - edgePadding
        else length - edgePadding - extent.r.getD 0.0) := fun hlength hbox =>
    Tame.ite ((hlength.sub hbox).sub hpadding) (((hlength.sub hpadding).sub hradius).mono (by omega))
  have hmiddle : Spotted 5 (if kind == "rect" then
        ((board.width - extent.width.getD (extent.r.getD 0.0 * 2.0)) / 2.0,
          (board.height - extent.height.getD (extent.r.getD 0.0 * 2.0)) / 2.0)
      else (board.width / 2.0, board.height / 2.0)) :=
    spotted_ite
      ⟨(hwidth.sub hbox.1).quotient (by decide), (hheight.sub hbox.2).quotient (by decide)⟩
      ⟨(hwidth.quotient (by decide)).mono (by omega), (hheight.quotient (by decide)).mono (by omega)⟩
  have hstart := spotted_ite (c := mentions .center = true) hmiddle hcurrent
  exact ⟨Tame.ite hnear (Tame.ite (hfar hwidth hbox.1) hstart.1),
    Tame.ite hnear (Tame.ite (hfar hheight hbox.2) hstart.2)⟩

/-! ## Rows and columns -/

namespace Arrangement

theorem columns_lt : ∀ count ≤ Measure.maxCount,
    columns count ≤ Measure.maxCount ∧ rows count ≤ Measure.maxCount := by
  decide

theorem divisor_ofNat : ∀ k < Measure.maxCount, 0 < k → Divisor (Scalar.ofNat k) := by
  decide

theorem tame_gap {length : Float} {n : Nat} (h : Tame 0 length) (hn : n ≤ Measure.maxCount) :
    Tame 2 (gap length n) := by
  unfold gap
  split
  · exact (h.share (by decide)).quotient (divisor_ofNat (n - 1) (by omega) (by omega))
  · exact Tame.zero

theorem spotted_place {layout : Layout} {count index : Nat} {width height : Float}
    (hwidth : Tame 0 width) (hheight : Tame 0 height) (hcount : count ≤ Measure.maxCount)
    (hindex : index < 2 ^ 53) : Spotted 4 (place layout count width height index) := by
  have hhalf : ∀ {length : Float}, Tame 0 length → Tame 4 (length / 2.0) := fun h =>
    (h.quotient (by decide)).mono (by omega)
  have hstep : ∀ {length : Float} {k i : Nat}, Tame 0 length → k ≤ Measure.maxCount →
      i < 2 ^ 53 → Tame 4 (length * 0.2 + gap length k * Scalar.ofNat i) := fun h hk hi =>
    (h.share (by decide)).add ((tame_gap h hk).share (slight_ofNat hi))
  have hgrid := columns_lt count hcount
  unfold place
  split
  · exact ⟨hhalf hwidth, hhalf hheight⟩
  · split
    · exact ⟨hstep hwidth hcount hindex, hhalf hheight⟩
    · exact ⟨hhalf hwidth, hstep hheight hcount hindex⟩
    · have hmod := Nat.mod_le index (columns count)
      have hdiv := Nat.div_le_self index (columns count)
      exact ⟨hstep hwidth hgrid.1 (by omega), hstep hheight hgrid.2 (by omega)⟩

end Arrangement

end Storyboard
