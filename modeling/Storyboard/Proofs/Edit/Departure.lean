import Storyboard.Proofs.Animation
import Storyboard.Proofs.Draft.Timely
import Storyboard.Proofs.Edit.Scope
import Storyboard.Proofs.Fields
/-!
# New elements that depart

A new element that moves should start from where it is put.  Circles and texts do: they are put by
the point that their motion starts from.  A box is put by its corner, and its motion starts from its
middle.
-/

namespace Storyboard

/-- Each new element is put where its tracks start. -/
def Departs {α : Type} [LT α] (as : List (Action α)) : Prop :=
  ∀ kind id props parent, .add kind id props parent ∈ as → ∀ property ∈ ["x", "y"],
    ∃ v, Fields.get? props property = some v ∧ StartsAt v (track id property as)

theorem startsAt_congr {α : Type} [LT α] {v : Value α} {ms ms' : List (α × Value α)}
    (h : ∀ m, m ∈ ms ↔ m ∈ ms') : StartsAt v ms ↔ StartsAt v ms' := by
  simp only [StartsAt, h]

/-! ## The start of a motion -/

namespace Animation

/-- The element moves on the vertical axis. -/
def Lifts {α : Type} (m : Animation) (f : Features α) : Prop :=
  m.bounce = true ∨ m.move = true ∧ (f.mentions .up = true ∨ f.mentions .down = true)

variable {m : Animation} {id : String} {d : Rat} {f : Features Rat} {base : Rat × Rat}
  {v : Value Rat}

theorem startsAt_horizontal_iff (hd : 0 < d) :
    StartsAt v (track id "x" (m.keyframes id d f base)) ↔
      (m.move = true → .real base.1 = v) := by
  rw [track_x]
  cases m.move <;> simp [StartsAt, hd, hd.le]

theorem startsAt_vertical_iff (hd : 0 < d) :
    StartsAt v (track id "y" (m.keyframes id d f base)) ↔ (m.Lifts f → .real base.2 = v) := by
  obtain ⟨hhalf, hhalf', -⟩ := half_within hd
  rw [track_y]
  cases hmove : m.move <;> cases hbounce : m.bounce <;> cases hup : f.mentions .up <;>
    cases hdown : f.mentions .down <;>
    simp [StartsAt, Lifts, climb, hmove, hbounce, hup, hdown, hd, hd.le, hhalf, hhalf']

end Animation

/-! ## New elements -/

namespace Edit

section

variable {α : Type} [Scalar α]

/-- Where a new element is put when its motion starts from a place. -/
def spot (p : Plan α) (start : α × α) : α × α :=
  match shapeKind p.features with
  | .rect =>
    let extent := p.features.extentFor "rect" p.board
    (start.1 - extent.width.getD 0.0 / 2.0, start.2 - extent.height.getD 0.0 / 2.0)
  | _ => start

theorem get?_setAll_extras {α : Type} {fields : Fields α} {f : Features α} {name : String}
    (h : name ≠ "opacity") :
    Fields.get? (Fields.setAll fields (extras f)) name = Fields.get? fields name := by
  unfold extras
  cases f.opacity with
  | none => rfl
  | some o => exact Fields.get?_set_ne h.symm

theorem fresh_spot (p : Plan α) (id : String) (index : Nat) :
    ∃ kind props, (fresh p id index).1 = .add kind id props .unstated ∧
      Fields.get? props "x" = some (.real (spot p (fresh p id index).2).1) ∧
      Fields.get? props "y" = some (.real (spot p (fresh p id index).2).2) := by
  unfold fresh spot
  dsimp only
  cases shapeKind p.features <;>
    exact ⟨_, _, rfl, (get?_setAll_extras (by decide)).trans rfl,
      (get?_setAll_extras (by decide)).trans rfl⟩

/-- The place that the motion of the `index`-th new element starts from. -/
def start (p : Plan α) (n index : Nat) : α × α :=
  (fresh p (Placeholder.id (n + 1 + index)) index).2

/-- The motion of the `index`-th new element. -/
def ownFrames (p : Plan α) (n index : Nat) : List (Action α) :=
  (Animation.ofFeatures p.features false).keyframes (Placeholder.id (n + 1 + index)) p.duration
    p.features (start p n index)

theorem freshAnimated_eq_cons (p : Plan α) (n index : Nat) : freshAnimated p n index =
    (fresh p (Placeholder.id (n + 1 + index)) index).1 :: ownFrames p n index := rfl

theorem add_mem_forNew_iff {p : Plan α} {n : Nat} {kind : ElementKind} {id : String}
    {props : Fields α} {parent : Parent} :
    .add kind id props parent ∈ (forNew p n).actions ↔ ∃ i < p.features.count,
      .add kind id props parent = (fresh p (Placeholder.id (n + 1 + i)) i).1 := by
  constructor
  · intro h
    rcases List.mem_append.1 h with h | h
    · cases (mentions_repaint h).1
    · obtain ⟨i, hi, h⟩ := List.mem_flatMap.1 h
      refine ⟨i, List.mem_range.1 hi, ?_⟩
      rw [freshAnimated_eq_cons] at h
      refine (List.mem_cons.1 h).resolve_right fun h => ?_
      obtain ⟨k, hk, -⟩ := Animation.keyframe_of_mem h
      cases hk
  · rintro ⟨i, hi, h⟩
    refine List.mem_append_right _ (List.mem_flatMap.2 ⟨i, List.mem_range.2 hi, ?_⟩)
    rw [h, freshAnimated_eq_cons]
    exact List.mem_cons_self

/-- The motions of one new element set the keyframes of no other. -/
theorem track_freshAnimated (p : Plan α) (n i j : Nat) (property : String) :
    track (Placeholder.id (n + 1 + i)) property (freshAnimated p n j) =
      if j = i then track (Placeholder.id (n + 1 + i)) property (ownFrames p n i) else [] := by
  split
  · rename_i heq
    subst heq
    obtain ⟨kind, props, hadd⟩ := fresh_eq_add p (Placeholder.id (n + 1 + j)) j
    rw [freshAnimated_eq_cons, track_cons, hadd]
    rfl
  · rename_i hne
    obtain ⟨kind, props, frames, heq, hframes⟩ := freshAnimated_eq p n j
    rw [heq]
    refine track_eq_nil fun k hk hid => hne ?_
    have hreferred := (hframes _ ((List.mem_cons.1 hk).resolve_left nofun)).2 _
      (List.mem_singleton.2 rfl)
    have := Placeholder.id_injective (hreferred.symm.trans hid)
    omega

theorem mem_track_forNew_iff {p : Plan α} {n i : Nat} (hi : i < p.features.count)
    {property : String} {m : α × Value α} :
    m ∈ track (Placeholder.id (n + 1 + i)) property (forNew p n).actions ↔
      m ∈ track (Placeholder.id (n + 1 + i)) property (ownFrames p n i) := by
  have hpainted : track (Placeholder.id (n + 1 + i)) property (repaint p.features).1 = [] :=
    track_eq_nil fun k hk =>
      absurd ((mentions_repaint hk).2 k.element (List.mem_singleton.2 rfl)) List.not_mem_nil
  have hactions : (forNew p n).actions =
      (repaint p.features).1 ++ (List.range p.features.count).flatMap (freshAnimated p n) := rfl
  simp only [hactions, track_append, hpainted, List.nil_append, track_flatMap,
    track_freshAnimated, List.mem_flatMap, List.mem_range, List.mem_ite_nil_right]
  constructor
  · rintro ⟨j, -, rfl, hm⟩
    exact hm
  · intro hm
    exact ⟨i, hi, rfl, hm⟩

end

/-! ## Boxes -/

/-- A new box moves on an axis on which it has a size. -/
def Displaced (p : Plan Rat) : Prop :=
  let m := Animation.ofFeatures p.features false
  let extent := p.features.extentFor "rect" p.board
  shapeKind p.features = .rect ∧
    (m.move = true ∧ extent.width.getD 0 ≠ 0 ∨ m.Lifts p.features ∧ extent.height.getD 0 ≠ 0)

variable {p : Plan Rat} {n : Nat}

theorem eq_spot_iff (start : Rat × Rat) :
    (start.1 = (spot p start).1 ↔ (shapeKind p.features = .rect →
      (p.features.extentFor "rect" p.board).width.getD 0 = 0)) ∧
    (start.2 = (spot p start).2 ↔ (shapeKind p.features = .rect →
      (p.features.extentFor "rect" p.board).height.getD 0 = 0)) := by
  have hhalf : ∀ x size : Rat, x = x - size / 2.0 ↔ size = 0 := by
    intro x size
    constructor
    · intro h
      norm_num at h
      linarith
    · rintro rfl
      norm_num
  unfold spot
  cases shapeKind p.features <;> simp [hhalf]

theorem departs_iff_forall (hd : 0 < p.duration) : Departs (forNew p n).actions ↔
    ∀ i < p.features.count,
      ((Animation.ofFeatures p.features false).move = true →
        (start p n i).1 = (spot p (start p n i)).1) ∧
      ((Animation.ofFeatures p.features false).Lifts p.features →
        (start p n i).2 = (spot p (start p n i)).2) := by
  have hstarts : ∀ i < p.features.count, ∀ v property,
      StartsAt v (track (Placeholder.id (n + 1 + i)) property (forNew p n).actions) ↔
        StartsAt v (track (Placeholder.id (n + 1 + i)) property (ownFrames p n i)) :=
    fun i hi v property => startsAt_congr fun _ => mem_track_forNew_iff hi
  constructor
  · intro hdeparts i hi
    obtain ⟨kind, props, hadd, hx, hy⟩ := fresh_spot p (Placeholder.id (n + 1 + i)) i
    have hown := hdeparts kind _ props .unstated (add_mem_forNew_iff.2 ⟨i, hi, hadd.symm⟩)
    obtain ⟨v, hv, hhorizontal⟩ := hown "x" (by simp)
    obtain ⟨w, hw, hvertical⟩ := hown "y" (by simp)
    cases hx.symm.trans hv
    cases hy.symm.trans hw
    rw [hstarts i hi, ownFrames, Animation.startsAt_horizontal_iff hd] at hhorizontal
    rw [hstarts i hi, ownFrames, Animation.startsAt_vertical_iff hd] at hvertical
    exact ⟨fun hmove => Value.real.inj (hhorizontal hmove),
      fun hlifts => Value.real.inj (hvertical hlifts)⟩
  · intro hall kind id props parent hmem
    obtain ⟨i, hi, heq⟩ := add_mem_forNew_iff.1 hmem
    obtain ⟨hmove, hlifts⟩ := hall i hi
    obtain ⟨kind', props', hadd, hx, hy⟩ := fresh_spot p (Placeholder.id (n + 1 + i)) i
    cases heq.trans hadd
    simp only [List.forall_mem_cons, List.not_mem_nil, false_imp_iff, implies_true, and_true]
    refine ⟨⟨_, hx, ?_⟩, _, hy, ?_⟩
    · rw [hstarts i hi, ownFrames, Animation.startsAt_horizontal_iff hd]
      exact fun h => congrArg Value.real (hmove h)
    · rw [hstarts i hi, ownFrames, Animation.startsAt_vertical_iff hd]
      exact fun h => congrArg Value.real (hlifts h)

theorem departs_forNew_iff (hd : 0 < p.duration) :
    Departs (forNew p n).actions ↔ (0 < p.features.count → ¬ Displaced p) := by
  rw [departs_iff_forall hd]
  simp only [(eq_spot_iff _).1, (eq_spot_iff _).2]
  constructor
  · rintro hall hcount ⟨hrect, hmoved⟩
    obtain ⟨hwidth, hheight⟩ := hall 0 hcount
    rcases hmoved with ⟨hmove, hne⟩ | ⟨hlifts, hne⟩
    · exact hne (hwidth hmove hrect)
    · exact hne (hheight hlifts hrect)
  · intro hstays i hi
    have hnone := hstays (Nat.zero_lt_of_lt hi)
    constructor
    · intro hmove hrect
      by_contra hne
      exact hnone ⟨hrect, .inl ⟨hmove, hne⟩⟩
    · intro hlifts hrect
      by_contra hne
      exact hnone ⟨hrect, .inr ⟨hlifts, hne⟩⟩

theorem departs_of_scoped {α : Type} [LT α] {d : Draft α} {f : Features α} {ids : List String}
    (h : d.Scoped f n ids) : Departs d.actions := by
  intro kind id props parent hmem
  cases h.added?_eq_none _ hmem

theorem added_forNew_iff {α : Type} [Scalar α] {p : Plan α} {n : Nat} :
    (∃ a ∈ (forNew p n).actions, a.added? ≠ none) ↔ 0 < p.features.count := by
  constructor
  · rintro ⟨a, ha, hadded⟩
    cases a with
    | add kind id props parent =>
        obtain ⟨i, hi, -⟩ := add_mem_forNew_iff.1 ha
        exact Nat.zero_lt_of_lt hi
    | _ => exact absurd rfl hadded
  · intro hcount
    obtain ⟨kind, props, hadd⟩ := fresh_eq_add p (Placeholder.id (n + 1 + 0)) 0
    exact ⟨_, add_mem_forNew_iff.2 ⟨0, hcount, hadd.symm⟩, nofun⟩

theorem not_departs_of_displaced (hd : 0 < p.duration) {d : Draft Rat} (h : build p n = .ok d)
    (hnew : ∃ a ∈ d.actions, a.added? ≠ none) (hdisplaced : Displaced p) :
    ¬ Departs d.actions := by
  obtain ⟨a, ha, hadded⟩ := hnew
  rcases build_cases h with hall | rfl | ⟨e, -, rfl⟩
  · exact absurd ((scoped_forAll? hall).added?_eq_none a ha) hadded
  · intro hdeparts
    exact (departs_forNew_iff hd).1 hdeparts (added_forNew_iff.1 ⟨a, ha, hadded⟩) hdisplaced
  · exact absurd (scoped_forOne.added?_eq_none a ha) hadded

/-- New elements are put where their motion starts, unless they are boxes that move on an axis on
which they have a size. -/
theorem departs_build_iff (hd : 0 < p.duration) {d : Draft Rat} (h : build p n = .ok d) :
    Departs d.actions ↔ ¬ ((∃ a ∈ d.actions, a.added? ≠ none) ∧ Displaced p) := by
  constructor
  · rintro hdeparts ⟨hnew, hdisplaced⟩
    exact not_departs_of_displaced hd h hnew hdisplaced hdeparts
  · intro hstays
    rcases build_cases h with hall | rfl | ⟨e, -, rfl⟩
    · exact departs_of_scoped (scoped_forAll? hall)
    · exact (departs_forNew_iff hd).2 fun hcount hdisplaced =>
        hstays ⟨added_forNew_iff.2 hcount, hdisplaced⟩
    · exact departs_of_scoped scoped_forOne

theorem exists_creating {α : Type} [Scalar α] (settings : Settings α) {r : Request α}
    (hdigits : Text.ShortRuns r.prompt.toList) (hcreate : Intent.createKeywords.any
      (fun k => k.isIn (Features.normalize r.prompt).toList) = true) (n : Nat) :
    ∃ p, Plan.ofRequest settings r = .ok p ∧ p.Follows settings r ∧
      build p n = .ok (forNew p n) := by
  obtain ⟨p, hp⟩ := Plan.ofRequest_returns settings hdigits
  have hfollows := Plan.follows_of_ofRequest hp
  refine ⟨p, hp, hfollows, ?_⟩
  rw [build, hfollows.create, hfollows.any, hcreate, if_pos rfl]

/-- A new circle that is to move up. -/
def rising : Request Rat where
  prompt := "add a circle and move it up"
  artboard := some .standard
  duration := some 4

theorem departs_build_rising : ∃ p d,
    Plan.ofRequest (Settings.read fun _ => none) rising = .ok p ∧ 0 < p.duration ∧
      build p 0 = .ok d ∧ (∃ a ∈ d.actions, a.added? ≠ none) ∧ Departs d.actions := by
  obtain ⟨p, hp, hfollows, hbuild⟩ := exists_creating (Settings.read fun _ => none) (r := rising)
    (Text.shortRuns_of_no_digits (by decide +kernel)) (by decide +kernel) 0
  have hpos : 0 < p.duration := by
    rw [hfollows.duration]
    decide +kernel
  have hone : p.features.count = 1 := hfollows.count_eq (by decide +kernel)
  have hcircle : p.features.mentions .circle = true :=
    (hfollows.mentions _).trans (by decide +kernel)
  refine ⟨p, _, hp, hpos, hbuild, added_forNew_iff.2 (hone ▸ Nat.one_pos),
    (departs_build_iff hpos hbuild).2 ?_⟩
  rintro ⟨-, hrect, -⟩
  rw [shapeKind, hcircle, if_pos rfl] at hrect
  cases hrect

/-- A new box that is to move. -/
def sliding : Request Rat where
  prompt := "add a square and move it"
  artboard := some .standard
  duration := some 4

/-- The motion of the box starts to the right of its place, by half of its width. -/
theorem not_departs_build_sliding : ∃ p d,
    Plan.ofRequest (Settings.read fun _ => none) sliding = .ok p ∧ 0 < p.duration ∧
      build p 0 = .ok d ∧ ¬ Departs d.actions := by
  obtain ⟨p, hp, hfollows, hbuild⟩ := exists_creating (Settings.read fun _ => none) (r := sliding)
    (Text.shortRuns_of_no_digits (by decide +kernel)) (by decide +kernel) 0
  have hpos : 0 < p.duration := by
    rw [hfollows.duration]
    decide +kernel
  have hone : p.features.count = 1 := hfollows.count_eq (by decide +kernel)
  have hmentions : ∀ {k b}, k.isIn (Features.normalize sliding.prompt).toList = b →
      p.features.mentions k = b := fun h => (hfollows.mentions _).trans h
  have hcircle : p.features.mentions .circle = false := hmentions (by decide +kernel)
  have hrect : p.features.mentions .rect = true := hmentions (by decide +kernel)
  have hmove : p.features.mentions .move = true := hmentions (by decide +kernel)
  have hwidth : (p.features.extentFor "rect" p.board).width =
      some (p.board.minDim * 0.18 * 1.4) := by
    have hsmall : p.features.mentions .small = false := hmentions (by decide +kernel)
    have hlarge : p.features.mentions .large = false := hmentions (by decide +kernel)
    have hside : Measure.square? (α := Rat) p.features.text.toList = none := by
      rw [hfollows.text]
      decide +kernel
    have hbroad : Measure.width? (α := Rat) p.features.text.toList = none := by
      rw [hfollows.text]
      decide +kernel
    have hhigh : Measure.height? (α := Rat) p.features.text.toList = none := by
      rw [hfollows.text]
      decide +kernel
    simp [Features.extentFor, Features.explicitExtent, Extent.isEmpty, hsmall, hlarge, hside,
      hbroad, hhigh]
  refine ⟨p, _, hp, hpos, hbuild, not_departs_of_displaced hpos hbuild
    (added_forNew_iff.2 (hone ▸ Nat.one_pos)) ⟨?_, .inl ⟨?_, ?_⟩⟩⟩
  · rw [shapeKind, hcircle, if_neg (by simp), hrect, if_pos rfl]
  · simp [Animation.ofFeatures, hmove]
  · have hboard : p.board = .standard := hfollows.board
    rw [hwidth, hboard]
    decide +kernel

end Edit

end Storyboard
