import Mathlib.Order.Interval.Set.Basic
import Mathlib.Tactic.Linarith
import Mathlib.Tactic.NormNum
import Storyboard.Proofs.Edit.Reach
import Storyboard.Scalar.Exact
/-!
# Elements at the edges of the artboard

An element that direction words put at an edge should keep a margin of 40 to all edges.  Rectangles
and circles do.  An image covers what lies to the right of and below its place, but is put like a
point: at the right and at the lower edge it sticks out by its whole size.
-/

namespace Storyboard

/-! ## What elements cover -/

/-- What an element covers on one axis, as seen from its place. -/
structure Span where
  low : Rat
  high : Rat

namespace Span

/-- Some room is left on an artboard with the margin on both sides. -/
def Fits (s : Span) (side : Rat) : Prop := s.high - s.low + 80 ≤ side

/-- At this place, all that is covered keeps the margin. -/
def Clear (s : Span) (side place : Rat) : Prop :=
  Set.Icc (place + s.low) (place + s.high) ⊆ Set.Icc 40 (side - 40)

end Span

/-- What an element covers on both axes. -/
structure Box where
  horizontal : Span
  vertical : Span

/-- A circle lies around its place; a rectangle or an image has its place for a corner. -/
def Element.box? (e : Element Rat) : Option Box :=
  if e.kind = "circle" then e.r.map fun r => ⟨⟨-r, r⟩, ⟨-r, r⟩⟩
  else if e.kind = "rect" ∨ e.kind = "image" then
    match e.width, e.height with
    | some w, some h => some ⟨⟨0, w⟩, ⟨0, h⟩⟩
    | _, _ => none
  else none

def Box.Fits (b : Box) (board : Artboard Rat) : Prop :=
  b.horizontal.Fits board.width ∧ b.vertical.Fits board.height

theorem Element.box_cases {e : Element Rat} {b : Box} (h : e.box? = some b) :
    (∃ r, e.kind = "circle" ∧ e.r = some r ∧ b = ⟨⟨-r, r⟩, ⟨-r, r⟩⟩) ∨
      ∃ w h, (e.kind = "rect" ∨ e.kind = "image") ∧ e.width = some w ∧ e.height = some h ∧
        b = ⟨⟨0, w⟩, ⟨0, h⟩⟩ := by
  unfold box? at h
  split at h
  · rename_i hcircle
    obtain ⟨r, hr, rfl⟩ := Option.map_eq_some_iff.1 h
    exact .inl ⟨r, hcircle, hr, rfl⟩
  · split at h
    · rename_i hbox
      split at h
      · rename_i w h' hw hh
        exact .inr ⟨w, h', hbox, hw, hh, (Option.some.inj h).symm⟩
      · cases h
    · cases h

namespace Edit

/-! ## Places at the edges -/

/-- The place at the first edge, or else at the last one: as far from the edge as an element needs
on that side. -/
def settle (before after side : Rat) (first : Bool) : Rat :=
  if first then 40 + before else side - 40 - after

/-- How much room an element of this kind gets before its place. -/
def roomBefore (kind : String) (extent : Extent Rat) : Rat :=
  if kind = "rect" then 0 else extent.r.getD 0

/-- How much room an element of this kind and size gets after its place. -/
def roomAfter (kind : String) (extent : Extent Rat) (size : Option Rat) : Rat :=
  if kind = "rect" then size.getD (extent.r.getD 0 * 2) else extent.r.getD 0

theorem edgePadding_eq : (edgePadding : Rat) = 40 ∧ (0.0 : Rat) = 0 ∧ (2.0 : Rat) = 2 := by
  norm_num [edgePadding]

/-- An element that gets as much room as it covers keeps the margin. -/
theorem clear_settle {s : Span} {side : Rat} (hfits : s.Fits side) (first : Bool) :
    s.Clear side (settle (-s.low) s.high side first) := by
  unfold Span.Fits at hfits
  unfold settle
  refine Set.Icc_subset_Icc ?_ ?_ <;> split_ifs <;> linarith

/-- An element that is put like a point keeps the margin at the first edge, and at the last one only
if it covers nothing else. -/
theorem clear_settle_point_iff {side size : Rat} (hfits : (⟨0, size⟩ : Span).Fits side)
    (first : Bool) :
    (⟨0, size⟩ : Span).Clear side (settle 0 0 side first) ↔ ¬ (first = false ∧ 0 < size) := by
  unfold Span.Fits at hfits
  unfold settle Span.Clear
  cases first
  · simp only [Bool.false_eq_true, if_false, true_and, not_lt, add_zero, sub_zero]
    constructor
    · intro hclear
      by_contra hsize
      have hend : side - 40 + size ∈ Set.Icc 40 (side - 40) :=
        hclear ⟨by linarith, le_refl _⟩
      linarith [hend.2]
    · rintro hsize x ⟨hlow, hhigh⟩
      exact ⟨by linarith, by linarith⟩
  · simp only [if_true, Bool.true_eq_false, false_and, not_false_eq_true, iff_true, add_zero]
    exact Set.Icc_subset_Icc (le_refl _) (by linarith)

section

variable {kind : String} {board : Artboard Rat} {extent : Extent Rat} {mentions : Keyword → Bool}
  {current : Option (Rat × Rat)}

theorem resolvePosition_fst (h : mentions .left = true ∨ mentions .right = true) :
    (resolvePosition kind board extent mentions current).1 =
      settle (roomBefore kind extent) (roomAfter kind extent extent.width) board.width
        (mentions .left) := by
  obtain ⟨hpadding, hzero, htwo⟩ := edgePadding_eq
  unfold resolvePosition settle roomBefore roomAfter
  by_cases hrect : kind = "rect" <;> cases hleft : mentions .left <;>
    simp_all [sub_right_comm]

theorem resolvePosition_snd (h : mentions .up = true ∨ mentions .down = true) :
    (resolvePosition kind board extent mentions current).2 =
      settle (roomBefore kind extent) (roomAfter kind extent extent.height) board.height
        (mentions .up) := by
  obtain ⟨hpadding, hzero, htwo⟩ := edgePadding_eq
  unfold resolvePosition settle roomBefore roomAfter
  by_cases hrect : kind = "rect" <;> cases hup : mentions .up <;>
    simp_all [sub_right_comm]

end

/-! ## The edit -/

variable {p : Plan Rat} {e : Element Rat} {b : Box}

/-- On each axis on which the prompt has a direction, an element keeps the margin at its place. -/
structure Inset (p : Plan Rat) (b : Box) (place : Rat × Rat) : Prop where
  horizontal : p.mentions .left = true ∨ p.mentions .right = true →
    b.horizontal.Clear p.board.width place.1
  vertical : p.mentions .up = true ∨ p.mentions .down = true →
    b.vertical.Clear p.board.height place.2

/-- The actions put an element at this place, and at no other. -/
def PlacedAt (as : List (Action Rat)) (id : String) (place : Rat × Rat) : Prop :=
  ∀ v, (Carries as id "x" v ↔ v = .real place.1) ∧ (Carries as id "y" v ↔ v = .real place.2)

/-- An image of some size goes to the right or to the lower edge. -/
def Protrudes (p : Plan Rat) (e : Element Rat) : Prop :=
  e.kind = "image" ∧
    (p.mentions .left = false ∧ p.mentions .right = true ∧ 0 < e.width.getD 0 ∨
      p.mentions .up = false ∧ p.mentions .down = true ∧ 0 < e.height.getD 0)

/-- Without a word for a size, an element has the one that it had. -/
theorem extent_of_unsized (h : p.features.explicitExtent e.kind p.board = {}) : extent p e =
    if e.kind = "circle" then { r := e.r }
    else if e.kind = "rect" then { width := e.width, height := e.height } else {} := by
  unfold extent
  rw [h]
  rfl

theorem inset_resolvePosition_iff {x : Extent Rat} {current : Option (Rat × Rat)} :
    Inset p b (resolvePosition e.kind p.board x p.mentions current) ↔
      (p.mentions .left = true ∨ p.mentions .right = true → b.horizontal.Clear p.board.width
        (settle (roomBefore e.kind x) (roomAfter e.kind x x.width) p.board.width
          (p.mentions .left))) ∧
      (p.mentions .up = true ∨ p.mentions .down = true → b.vertical.Clear p.board.height
        (settle (roomBefore e.kind x) (roomAfter e.kind x x.height) p.board.height
          (p.mentions .up))) := by
  constructor
  · rintro ⟨hhorizontal, hvertical⟩
    exact ⟨fun h => resolvePosition_fst h ▸ hhorizontal h,
      fun h => resolvePosition_snd h ▸ hvertical h⟩
  · rintro ⟨hhorizontal, hvertical⟩
    exact ⟨fun h => (resolvePosition_fst h).symm ▸ hhorizontal h,
      fun h => (resolvePosition_snd h).symm ▸ hvertical h⟩

/-- Where direction words put an element, it keeps the margin unless it protrudes. -/
theorem inset_place_iff (hunsized : p.features.explicitExtent e.kind p.board = {})
    (hbox : e.box? = some b) (hfits : b.Fits p.board) {current : Option (Rat × Rat)} :
    Inset p b (resolvePosition e.kind p.board (extent p e) p.mentions current) ↔
      ¬ Protrudes p e := by
  obtain ⟨hwidth, hheight⟩ := hfits
  rw [inset_resolvePosition_iff, extent_of_unsized hunsized]
  rcases e.box_cases hbox with ⟨r, hkind, hr, rfl⟩ | ⟨w, h, hkind | hkind, hw, hh, rfl⟩
  · have hhorizontal := clear_settle hwidth (p.mentions .left)
    have hvertical := clear_settle hheight (p.mentions .up)
    rw [neg_neg] at hhorizontal hvertical
    simp [Protrudes, roomBefore, roomAfter, hkind, hr, hhorizontal, hvertical]
  · have hhorizontal := clear_settle hwidth (p.mentions .left)
    have hvertical := clear_settle hheight (p.mentions .up)
    rw [neg_zero] at hhorizontal hvertical
    simp [Protrudes, roomBefore, roomAfter, hkind, hw, hh, hhorizontal, hvertical]
  · have hhorizontal := clear_settle_point_iff hwidth (p.mentions .left)
    have hvertical := clear_settle_point_iff hheight (p.mentions .up)
    simp [Protrudes, roomBefore, roomAfter, hkind, hw, hh, hhorizontal, hvertical]
    cases p.mentions .left <;> cases p.mentions .up <;> simp

theorem goal_of_directed (h : p.features.hasDirection = true) : goal? p e =
    some (resolvePosition e.kind p.board (extent p e) p.mentions (some (base p e))) := by
  rw [goal?, h, Bool.true_or, if_pos rfl]

/-- The update of an aimed edit puts the element at its goal. -/
theorem placedAt_forOne {place : Rat × Rat} (hgoal : goal? p e = some place) (n : Nat) :
    PlacedAt (forOne p n e).actions e.id place := by
  have hupdate : ∀ props, .update e.id props ∈ (forOne p n e).actions ↔
      props ≠ [] ∧ props = changes p e ++ placing (goal? p e) := by
    intro props
    show .update e.id props ∈ (repaint p.features).1 ++ (change p e).1 ↔ _
    rw [List.mem_append, update_mem_change_iff]
    have hpainted := repaint_actions p.features
    generalize (repaint p.features).1 = painted at hpainted
    cases hpainted <;> simp
  have hcarries : ∀ name ∈ ["x", "y"], ∀ v, Carries (forOne p n e).actions e.id name v ↔
      Fields.get? (placing (goal? p e)) name = some v := by
    intro name hname v
    rw [← get?_placed hname]
    constructor
    · rintro ⟨props, hprops, hv⟩
      obtain ⟨-, rfl⟩ := (hupdate props).1 hprops
      exact hv
    · exact fun hv => ⟨_, (hupdate _).2 ⟨by simp [hgoal, placing], rfl⟩, hv⟩
  intro v
  rw [hcarries "x" (by simp), hcarries "y" (by simp), hgoal]
  simp [placing, eq_comm]

/-- An edit with a word for a direction, but none for a size, puts the element at a place where it
keeps the margin, unless it is an image that goes to the right or to the lower edge. -/
theorem build_inset_iff (h : Aimed p e) (hdirected : p.features.hasDirection = true)
    (hunsized : p.features.explicitExtent e.kind p.board = {}) (hbox : e.box? = some b)
    (hfits : b.Fits p.board) (n : Nat) :
    ∃ d place, build p n = .ok d ∧ PlacedAt d.actions e.id place ∧
      (Inset p b place ↔ ¬ Protrudes p e) := by
  exact ⟨_, _, h.build_eq n, placedAt_forOne (goal_of_directed hdirected) n,
    inset_place_iff hunsized hbox hfits⟩

/-- A request to move an element to the right. -/
def slide (e : Element Rat) : Request Rat where
  prompt := "move it right"
  artboard := some .standard
  selected := some e

theorem exists_slide {e : Element Rat} (hnamed : e.id ≠ "") : ∃ p,
    Plan.ofRequest (Settings.read fun _ => none) (slide e) = .ok p ∧ Aimed p e ∧
      p.board = .standard ∧ p.mentions .left = false ∧ p.mentions .right = true ∧
      p.features.hasDirection = true ∧
      ∀ kind, p.features.explicitExtent kind p.board = {} := by
  have hshort : Text.ShortRuns "move it right".toList :=
    Text.shortRuns_of_length_le (by decide +kernel)
  have hold : Intent.createKeywords.any
      (fun k => k.isIn (Features.normalize "move it right").toList) = false := by decide +kernel
  have hone : Keyword.all.isIn (Features.normalize "move it right").toList = false := by
    decide +kernel
  obtain ⟨p, hp, hfollows, haimed⟩ := exists_aimed (Settings.read fun _ => none)
    (r := slide e) hshort hold hone rfl hnamed
  have hmentions : ∀ {k b}, k.isIn (Features.normalize "move it right").toList = b →
      p.features.mentions k = b := fun h => (hfollows.mentions _).trans h
  have htext : p.features.text = Features.normalize "move it right" := hfollows.text
  refine ⟨p, hp, haimed, hfollows.board, hmentions (by decide +kernel),
    hmentions (by decide +kernel), ?_, fun kind => ?_⟩
  · rw [Features.hasDirection, Features.any, List.any_eq_true]
    exact ⟨.right, by simp, hmentions (by decide +kernel)⟩
  · have hsmall : p.features.mentions .small = false := hmentions (by decide +kernel)
    have hlarge : p.features.mentions .large = false := hmentions (by decide +kernel)
    have hradius : Measure.radius? (α := Rat) p.features.text.toList = none := by
      rw [htext]
      decide +kernel
    have hsquare : Measure.square? (α := Rat) p.features.text.toList = none := by
      rw [htext]
      decide +kernel
    have hwidth : Measure.width? (α := Rat) p.features.text.toList = none := by
      rw [htext]
      decide +kernel
    have hheight : Measure.height? (α := Rat) p.features.text.toList = none := by
      rw [htext]
      decide +kernel
    simp [Features.explicitExtent, Extent.isEmpty, hsmall, hlarge, hradius, hsquare, hwidth,
      hheight]

/-- A box or a picture in the upper left of the artboard. -/
def panel (kind : String) : Element Rat :=
  { id := "i1", kind, x := some 100, y := some 100, width := some 200, height := some 100 }

/-- What the box or picture covers. -/
def panelBox : Box := ⟨⟨0, 200⟩, ⟨0, 100⟩⟩

theorem fits_panelBox : panelBox.Fits .standard := by
  constructor <;> norm_num [panelBox, Span.Fits, Artboard.standard]

/-- A rectangle that moves to the right keeps the margin. -/
theorem build_inset_panel : ∃ p d place,
    Plan.ofRequest (Settings.read fun _ => none) (slide (panel "rect")) = .ok p ∧
      (panel "rect").box? = some panelBox ∧ build p 0 = .ok d ∧
      PlacedAt d.actions "i1" place ∧ Inset p panelBox place := by
  obtain ⟨p, hp, haimed, hboard, -, -, hdirected, hunsized⟩ :=
    exists_slide (e := panel "rect") (by decide)
  obtain ⟨d, place, hd, hplaced, hinset⟩ :=
    build_inset_iff haimed hdirected (hunsized _) rfl (hboard ▸ fits_panelBox) 0
  exact ⟨p, d, place, hp, rfl, hd, hplaced, hinset.2 fun h => absurd h.1 (by decide)⟩

/-- A picture that would fit leaves the artboard when it moves to the right. -/
theorem not_inset_panel : ∃ p d place,
    Plan.ofRequest (Settings.read fun _ => none) (slide (panel "image")) = .ok p ∧
      Aimed p (panel "image") ∧ p.features.hasDirection = true ∧
      p.features.explicitExtent "image" p.board = {} ∧
      (panel "image").box? = some panelBox ∧ panelBox.Fits p.board ∧ build p 0 = .ok d ∧
      PlacedAt d.actions "i1" place ∧ ¬ Inset p panelBox place := by
  obtain ⟨p, hp, haimed, hboard, hleft, hright, hdirected, hunsized⟩ :=
    exists_slide (e := panel "image") (by decide)
  have hfits : panelBox.Fits p.board := hboard ▸ fits_panelBox
  refine ⟨p, _, _, hp, haimed, hdirected, hunsized _, rfl, hfits, haimed.build_eq 0,
    placedAt_forOne (goal_of_directed hdirected) 0, fun hinset => ?_⟩
  exact (inset_place_iff (hunsized _) rfl hfits).1 hinset
    ⟨rfl, .inl ⟨hleft, hright, by norm_num [panel]⟩⟩

end Edit

end Storyboard
