import Storyboard.Proofs.Binary.Portion
import Storyboard.Proofs.Draft.Fitting
import Storyboard.Proofs.Stamp
/-!
# Drafts that last

Most generators set a keyframe at the end of the plan, which lasts for two seconds at least, and
photos set one at their own end.  A meadow and a figure that spins are at rest before the end of
the plan, and so may be at rest before two seconds are over.
-/

namespace Storyboard

open Storyboard.Action

/-! ## Times -/

/-- The time can be set, and is not before `least`. -/
structure Reaches (least : Rat) (t : Float) : Prop where
  settable : Settable t
  late : ∃ q, Scalar.toRat? t = some q ∧ least ≤ q

/-- The time is before two seconds, if it is any. -/
def Brief (t : Float) : Prop := ∀ q, Scalar.toRat? t = some q → q < 2

theorem toRat?_two : Scalar.toRat? (2.0 : Float) = some 2 := by
  rw [Binary.toRat?_eq_value?]
  show some ((2 ^ 52 : Nat) * (2 : Rat) ^ (-51 : Int)) = some 2
  norm_num

theorem toRat?_three : Scalar.toRat? (3.0 : Float) = some 3 := by
  rw [Binary.toRat?_eq_value?]
  show some ((3 * 2 ^ 51 : Nat) * (2 : Rat) ^ (-51 : Int)) = some 3
  norm_num

theorem toRat?_four : Scalar.toRat? (4.0 : Float) = some 4 := by
  rw [Binary.toRat?_eq_value?]
  show some ((2 ^ 52 : Nat) * (2 : Rat) ^ (-50 : Int)) = some 4
  norm_num

theorem reaches_zero : Reaches 0 0.0 := ⟨settable_zero, 0, Binary.toRat?_zero, le_refl 0⟩

theorem reaches_of_settable {t : Float} (h : Settable t) : Reaches 0 t := by
  obtain ⟨q, hq⟩ := Option.isSome_iff_exists.1 h.1
  exact ⟨h, q, hq, not_lt.1 fun hlt => h.2 ((Binary.lt_iff_lt hq Binary.toRat?_zero).2 hlt)⟩

theorem reaches_of_not_lt {least : Rat} {low t : Float} (hlow : Scalar.toRat? low = some least)
    (hpos : 0 ≤ least) (hfinite : Scalar.isFinite t = true) (h : ¬ t < low) : Reaches least t := by
  obtain ⟨q, hq⟩ := Option.isSome_iff_exists.1 hfinite
  have hle : least ≤ q := not_lt.1 fun hlt => h ((Binary.lt_iff_lt hq hlow).2 hlt)
  refine ⟨⟨hfinite, fun hneg => ?_⟩, q, hq, hle⟩
  exact absurd ((Binary.lt_iff_lt hq Binary.toRat?_zero).1 hneg) (not_lt.2 (hpos.trans hle))

theorem reaches_max {least : Rat} {low t : Float} (hlow : Scalar.toRat? low = some least)
    (hpos : 0 ≤ least) (hfinite : Scalar.isFinite t = true) : Reaches least (Scalar.max low t) := by
  refine reaches_of_not_lt hlow hpos ?_ ?_
  · unfold Scalar.max
    split
    · exact hfinite
    · exact Option.isSome_iff_exists.2 ⟨least, hlow⟩
  · rcases Binary.max_eq_or_lt low t with heq | hlt
    · rw [heq]
      exact fun hself => lt_irrefl least ((Binary.lt_iff_lt hlow hlow).1 hself)
    · exact Binary.not_lt_of_lt hlt

theorem brief_of_lt {t : Float} (h : t < 2.0) : Brief t :=
  fun _ hq => (Binary.lt_iff_lt hq toRat?_two).1 h

theorem brief_zero : Brief 0.0 := brief_of_lt (by decide)

namespace Reaches

variable {d : Float}

theorem isFinite {least : Rat} (h : Reaches least d) : Scalar.isFinite d = true := h.settable.1

/-- A portion of what lasts can be set. -/
theorem settable_portion {c : Float} (h : Reaches 2 d) (hc : Binary.Moderate (-53) c) :
    Settable (d * c) := by
  obtain ⟨q, hq, hle⟩ := h.late
  have hpos : (0.0 : Float) < d :=
    (Binary.lt_iff_lt Binary.toRat?_zero hq).2 (lt_of_lt_of_le (by norm_num) hle)
  exact settable_of_moderate (Binary.moderate_portion
    (Binary.moderate_of_isFinite hpos h.isFinite) hc (by decide) (by decide))

/-- A portion of what lasts does not last itself only where it is plainly brief. -/
theorem portion {c : Float} (h : Reaches 2 d) (hc : Binary.Moderate (-53) c)
    (hlate : ¬ d * c < 2.0) : Reaches 2 (d * c) :=
  reaches_of_not_lt toRat?_two (by norm_num) (h.settable_portion hc).1 hlate

/-- The earlier of two times that last. -/
theorem min {other : Float} (h : Reaches 2 d) (hother : Reaches 2 other) :
    Reaches 2 (Scalar.min d other) := by
  unfold Scalar.min
  split
  · exact hother
  · exact h

end Reaches

/-! ## Actions -/

namespace Action

/-- A keyframe at `least` or later that gets through the gate. -/
def Late (least : Rat) (a : Action Float) : Prop :=
  a.Fits ∧ ∃ s, a.stamp? = some s ∧ least ≤ s.time

theorem late_key {least : Rat} {id property easing : String} {t v : Float} :
    (key id property t v easing).Late least ↔
      (Named id ∧ property ∈ Gate.animatable ∧ InPlace (property, .real v)) ∧ Reaches least t := by
  have hstamp : (key id property t v easing).stamp? =
      (Scalar.toRat? t).map fun q => ⟨id, property, q⟩ := rfl
  unfold Late
  rw [fits_key, hstamp]
  simp only [Option.map_eq_some_iff]
  constructor
  · rintro ⟨⟨hid, hproperty, htime, hvalue⟩, s, ⟨q, hq, rfl⟩, hle⟩
    exact ⟨⟨hid, hproperty, hvalue⟩, htime, q, hq, hle⟩
  · rintro ⟨⟨hid, hproperty, hvalue⟩, htime, q, hq, hle⟩
    exact ⟨⟨hid, hproperty, htime, hvalue⟩, _, ⟨q, hq, rfl⟩, hle⟩

theorem brief_key {id property easing : String} {t v : Float} :
    (∀ s, (key id property t v easing).stamp? = some s → s.time < 2) ↔ Brief t := by
  have hstamp : (key id property t v easing).stamp? =
      (Scalar.toRat? t).map fun q => ⟨id, property, q⟩ := rfl
  rw [hstamp]
  simp [Brief]

end Action

/-- Some keyframe at `least` or later gets through the gate. -/
def Late (least : Rat) (as : List (Action Float)) : Prop := ∃ a ∈ as, a.Late least

/-- Once a keyframe has a name to get through the gate with, some keyframe at `least` or later
does. -/
def Lasting (least : Rat) (as : List (Action Float)) : Prop :=
  ∀ k, .keyframe k ∈ as → Named k.element → Late least as

/-- All keyframes are before two seconds. -/
def AllBrief (as : List (Action Float)) : Prop := ∀ a ∈ as, ∀ s, a.stamp? = some s → s.time < 2

section Lists

variable {least : Rat} {as bs : List (Action Float)}

theorem late_cons {a : Action Float} : Late least (a :: as) ↔ a.Late least ∨ Late least as := by
  simp [Late]

theorem late_append : Late least (as ++ bs) ↔ Late least as ∨ Late least bs := by
  simp [Late, or_and_right, exists_or]

theorem late_flatMap {f : Nat → List (Action Float)} {i count : Nat} (hi : i < count)
    (h : Late least (f i)) : Late least ((List.range count).flatMap f) := by
  obtain ⟨a, ha, hlate⟩ := h
  exact ⟨a, List.mem_flatMap.2 ⟨i, List.mem_range.2 hi, ha⟩, hlate⟩

theorem lasting_of_late (h : Late least as) : Lasting least as := fun _ _ _ => h

theorem lasting_append (ha : Lasting least as) (hb : Lasting least bs) :
    Lasting least (as ++ bs) := by
  intro k hk hnamed
  rcases List.mem_append.1 hk with hk | hk
  · exact late_append.2 (.inl (ha k hk hnamed))
  · exact late_append.2 (.inr (hb k hk hnamed))

theorem lasting_flatMap {β : Type} {f : β → List (Action Float)} {xs : List β}
    (h : ∀ x ∈ xs, Lasting least (f x)) : Lasting least (xs.flatMap f) := by
  intro k hk hnamed
  obtain ⟨x, hx, hk⟩ := List.mem_flatMap.1 hk
  obtain ⟨a, ha, hlate⟩ := h x hx k hk hnamed
  exact ⟨a, List.mem_flatMap.2 ⟨x, hx, ha⟩, hlate⟩

/-- Keyframes that all move one element. -/
theorem lasting_of_referred (id : String) (h : ∀ a ∈ as, ∀ s ∈ a.referred, s = id)
    (hlate : Named id → Late least as) : Lasting least as := by
  intro k hk hnamed
  have hid : k.element = id := h _ hk _ (by simp [referred])
  exact hlate (hid ▸ hnamed)

/-- No keyframe at all. -/
theorem lasting_of_still (h : ∀ k, .keyframe k ∉ as) : Lasting least as :=
  fun k hk => absurd hk (h k)

theorem lasting_ite {c : Prop} [Decidable c] (h : Lasting least as) :
    Lasting least (if c then as else []) := by
  split
  · exact h
  · exact lasting_of_still (by simp)

theorem allBrief_append : AllBrief (as ++ bs) ↔ AllBrief as ∧ AllBrief bs :=
  List.forall_mem_append

end Lists

/-! ## Scenes -/

namespace Scene

variable {p : Plan Float}

theorem late_city (h : Reaches 2 p.duration) (n : Nat) : Late 2 (city p n).actions := by
  have hlast : Reaches 2 (1.5 + Scalar.ofNat 4 * 0.2) :=
    reaches_of_not_lt toRat?_two (by norm_num) (by decide) (by decide)
  refine late_cons.2 (.inr (late_cons.2 (.inr (late_flatMap (show 4 < 5 by decide) ?_))))
  simp +decide [house, late_cons, late_key, h.min hlast]

theorem late_meadow (h : Reaches 2 (p.duration * 0.4)) (n : Nat) : Late 2 (meadow p n).actions := by
  simp +decide [meadow, inGroup, late_cons, late_key, h]

/-- A meadow comes to rest before the end of the plan; any other scene moves until then. -/
theorem late_of_builder? {archetype : Archetype} {make : Plan Float → Nat → Draft Float}
    (hmake : builder? archetype = some make) (h : Reaches 2 p.duration)
    (hmeadow : archetype = .meadow → Reaches 2 (p.duration * 0.4)) (n : Nat) :
    Late 2 (make p n).actions := by
  cases archetype <;>
    simp only [builder?, Option.some.injEq, reduceCtorEq] at hmake <;> subst hmake
  case city => exact late_city h n
  case meadow => exact late_meadow (hmeadow rfl) n
  case sunset => simp +decide [sunset, inGroup, late_cons, late_key, h]
  case ocean => simp +decide [ocean, inGroup, late_cons, late_key, h]
  case desert => simp +decide [desert, inGroup, late_cons, late_key, h]
  case genericScene => simp +decide [generic, inGroup, late_cons, late_key, h]
  case forest =>
    refine late_cons.2 (.inr (late_append.2 (.inr (late_flatMap (show 0 < 5 by decide) ?_))))
    simp +decide [tree, late_cons, late_key, h]
  case mountain =>
    refine late_cons.2 (.inr (late_append.2 (.inr (late_flatMap (show 0 < 3 by decide) ?_))))
    simp +decide [driftingCloud, late_cons, late_key, h]
  case neonStudio =>
    refine late_cons.2 (.inr (late_append.2 (.inr (late_flatMap (show 0 < 4 by decide) ?_))))
    simp +decide [strip, late_cons, late_key, h]
  case space =>
    refine late_cons.2 (.inr (late_append.2 (.inr ?_)))
    simp +decide [late_cons, late_key, h]

theorem allBrief_meadow (h : Brief (p.duration * 0.4)) (n : Nat) :
    AllBrief (meadow p n).actions := by
  simp [AllBrief, meadow, inGroup, brief_key, brief_zero, h]

theorem late_zero_meadow (n : Nat) : Late 0 (meadow p n).actions := by
  simp +decide [meadow, inGroup, late_cons, late_key, reaches_zero]

end Scene

/-! ## Figures -/

namespace Rig

variable {p : Plan Float} {n : Nat}

/-- A figure that spins is at rest once the settle beat begins; any other moves until its end. -/
theorem late_animated (hsettle : Reaches 2 p.beats.settle.finish)
    (hspin : p.motion = .spin → Reaches 2 p.beats.intro.finish ∨ Reaches 2 p.beats.settle.start) :
    Late 2 (animated p n).actions := by
  have hnamed : Named (ofPlan p n).group := named_id _
  have hgroup : (ofPlan p n).group ≠ "" := Placeholder.id_ne_empty _
  have hidle : Late 2 (Motion.idling (ofPlan p n) p.beats) := by
    simp +decide [Motion.idling, hgroup, late_cons, late_key, hnamed, hsettle]
  refine late_append.2 (.inr ?_)
  unfold Motion.ofRig
  split
  · exact hidle
  · rename_i hmoves
    cases hmotion : p.motion with
    | none => exact hidle
    | idle => exact hidle
    | wave => exact late_append.2 (.inr hidle)
    | walk =>
        rw [hmotion] at hmoves
        simp only [Motion.ofPreset, Motion.keyframes, Motion.walking] at hmoves ⊢
        split
        · simp +decide [hgroup, late_append, late_cons, late_key, hnamed, hsettle]
        · simp_all
    | bounce =>
        simp +decide [Motion.ofPreset, Motion.keyframes, Motion.bouncing, late_cons, late_key,
          hnamed, hsettle]
    | spin =>
        rcases hspin hmotion with hrise | hrest
        · simp +decide [Motion.ofPreset, Motion.keyframes, Motion.spinning, late_cons, late_key,
            hnamed, hrise]
        · simp +decide [Motion.ofPreset, Motion.keyframes, Motion.spinning, late_cons, late_key,
            hnamed, hrest]
    | pulse =>
        simp +decide [Motion.ofPreset, Motion.keyframes, Motion.pulsing, late_cons, late_key,
          hnamed, hsettle]

theorem actions_of_spin (hspin : p.motion = .spin) :
    (animated p n).actions =
      (draft p n).actions ++ Motion.spinning (ofPlan p n) p.beats := by
  unfold animated Motion.ofRig
  rw [hspin]
  rfl

theorem allBrief_draft : AllBrief (draft p n).actions := by
  have hshapes : ∀ a ∈ shapes p n, a.stamp? = none := by
    unfold shapes
    cases buildOf p <;> simp
  refine List.forall_mem_cons.2 ⟨by simp, ?_⟩
  rw [List.forall_mem_map]
  intro a ha
  simp [hshapes a ha]

theorem allBrief_animated (hspin : p.motion = .spin) (hrise : Brief p.beats.intro.finish)
    (hrest : Brief p.beats.settle.start) : AllBrief (animated p n).actions := by
  rw [actions_of_spin hspin]
  refine allBrief_append.2 ⟨allBrief_draft, ?_⟩
  simp [AllBrief, Motion.spinning, brief_key, hrise, hrest]

theorem late_zero_animated (hspin : p.motion = .spin) (hrise : Settable p.beats.intro.finish) :
    Late 0 (animated p n).actions := by
  have hnamed : Named (ofPlan p n).group := named_id _
  rw [actions_of_spin hspin]
  refine late_append.2 (.inr ?_)
  simp +decide [Motion.spinning, late_cons, late_key, hnamed, reaches_of_settable hrise]

end Rig

/-! ## Shapes -/

namespace Shape

variable {p : Plan Float}

theorem element_ne_keyframe (id : String) (k : Keyframe Float) : element p id ≠ .keyframe k := by
  unfold element
  dsimp only
  split <;> simp [path]

theorem late_build (h : Reaches 2 p.duration)
    (hdrawn : p.features.any [.animate, .draw, .path] = true) (n : Nat) :
    Late 2 (build p n).actions := by
  refine late_cons.2 (.inr ?_)
  rw [drawing, if_pos hdrawn]
  simp +decide [late_cons, late_key, h]

theorem not_mem_build (hstill : p.features.any [.animate, .draw, .path] = false) (n : Nat)
    (k : Keyframe Float) : .keyframe k ∉ (build p n).actions := by
  simp [build, drawing, hstill, Ne.symm (element_ne_keyframe _ k)]

theorem allBrief_build (hstill : p.features.any [.animate, .draw, .path] = false) (n : Nat) :
    AllBrief (build p n).actions := by
  intro a ha s hs
  cases a with
  | keyframe k => exact absurd ha (not_mem_build hstill n k)
  | _ => cases hs

theorem lasting_build (h : Reaches 2 p.duration) (n : Nat) : Lasting 2 (build p n).actions := by
  cases hdrawn : p.features.any [.animate, .draw, .path] with
  | true => exact lasting_of_late (late_build h hdrawn n)
  | false => exact lasting_of_still (not_mem_build hdrawn n)

end Shape

/-! ## Photos -/

namespace Photo

variable {p : Plan Float}

/-- An image that is moved is moved to the end, and so is the shape in front of it. -/
theorem lasting_pan (h : Scalar.isFinite p.duration = true) (n : Nat) :
    Lasting 3 (pan p n).actions := by
  have hd : Reaches 3 (Scalar.max 3.0 p.duration) := reaches_max toRat?_three (by norm_num) h
  have hid := target_id p 0.7
  rcases hfound : found? p with _ | e
  · refine lasting_of_late ?_
    rw [hfound, Option.map_none] at hid
    simp +decide [pan, place, hid, late_cons, late_append, late_key, hd]
  · rw [hfound, Option.map_some] at hid
    by_cases hparallax : p.mentions .parallax = true
    · refine lasting_of_late ?_
      simp +decide [pan, place, hid, hparallax, late_cons, late_key, hd]
    · refine lasting_of_referred e.id ?_ fun hnamed => ?_
      · simp only [pan, place, hid, hparallax, Bool.false_eq_true, if_false]
        split <;> simp [path]
      · simp +decide [pan, place, hid, hparallax, late_cons, late_key, hnamed, hd]

theorem late_layers (h : Scalar.isFinite p.duration = true) (n : Nat) :
    Late 4 (layers p n).actions := by
  have hd : Reaches 4 (Scalar.max 4.0 p.duration) := reaches_max toRat?_four (by norm_num) h
  simp +decide [layers, late_cons, late_append, late_key, hd]

end Photo

/-! ## Edits -/

theorem Animation.lasting {m : Animation} {id : String} {d : Float} {f : Features Float}
    {base : Float × Float} {goal : Option (Float × Float)} (h : Reaches 2 d) :
    Lasting 2 (m.keyframes id d f base goal) := by
  have hmoving : Lasting 2 (moving id d f base goal) := by
    intro k hk hnamed
    have hid : Named id := by
      have hframe :
          .keyframe k ∈ keyframes ⟨true, false, false, false, false⟩ id d f base goal := by
        simpa [keyframes] using hk
      have hsame : k.element = id := (Animation.mentions hframe).2 _ (by simp [referred])
      exact hsame ▸ hnamed
    unfold moving
    split <;> simp +decide [late_cons, late_key, hid, h]
  refine lasting_append (lasting_append (lasting_append (lasting_append ?_ ?_) ?_) ?_) ?_
  · exact lasting_ite hmoving
  all_goals
    exact lasting_ite (lasting_of_referred id (by simp) fun hid => by
      simp +decide [late_cons, late_key, hid, h])

namespace Edit

variable {p : Plan Float}

theorem lasting_repaint (f : Features Float) : Lasting 2 (repaint f).1 := by
  refine lasting_of_still fun k => ?_
  unfold repaint
  split
  · split <;> simp
  · simp

theorem lasting_update? (id : String) (props : Fields Float) : Lasting 2 (update? id props) := by
  refine lasting_of_still fun k => ?_
  unfold update?
  split <;> simp

theorem lasting_fresh (id : String) (index : Nat) : Lasting 2 [(fresh p id index).1] := by
  refine lasting_of_still fun k hk => ?_
  obtain ⟨kind, props, hadd⟩ := fresh_eq_add p id index
  rw [hadd] at hk
  cases List.mem_singleton.1 hk

theorem lasting_forNew (h : Reaches 2 p.duration) (n : Nat) : Lasting 2 (forNew p n).actions := by
  refine lasting_append (lasting_repaint _) (lasting_flatMap fun index _ => ?_)
  exact lasting_append (lasting_fresh _ index) (Animation.lasting h)

theorem lasting_forOne (h : Reaches 2 p.duration) (n : Nat) (e : Element Float) :
    Lasting 2 (forOne p n e).actions :=
  lasting_append (lasting_repaint _) (lasting_append (lasting_update? _ _) (Animation.lasting h))

theorem lasting_of_build (h : Reaches 2 p.duration) {n : Nat} {d : Draft Float}
    (hd : build p n = .ok d) : Lasting 2 d.actions := by
  rcases build_cases hd with hall | rfl | ⟨e, -, rfl⟩
  · simp only [forAll?, Option.ite_none_right_eq_some, Option.some.injEq] at hall
    rw [← hall.2]
    exact lasting_append (lasting_repaint _) (lasting_flatMap fun e _ =>
      lasting_append (lasting_update? _ _) (Animation.lasting h))
  · exact lasting_forNew h n
  · exact lasting_forOne h n e

end Edit

end Storyboard
