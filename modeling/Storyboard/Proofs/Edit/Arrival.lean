import Storyboard.Proofs.Animation
import Storyboard.Proofs.Draft.Canvas
import Storyboard.Proofs.Fields
import Storyboard.Proofs.Plan
/-!
# Edits that arrive

The edit of an element may put it somewhere else and move it at the same time.  Its tracks end
where it is put: a move goes there, and so does a bounce as long as the place is no higher or lower
than the one that the element has.
-/

namespace Storyboard

/-- Where some actions put an element, its tracks end. -/
def Arrives {α : Type} [LT α] (id : String) (as : List (Action α)) : Prop :=
  ∀ props, .update id props ∈ as → ∀ property ∈ ["x", "y"], ∀ v,
    Fields.get? props property = some v → EndsAt v (track id property as)

/-! ## Moves to a place -/

namespace Animation

/-- The heights that a bounce has at the end; one that has no end is at the top there, too. -/
def landings (d y : Float) : List Float :=
  (if Scalar.isFinite d then [] else [y - 80.0]) ++ [y]

variable {m : Animation} {id : String} {d : Float} {f : Features Float} {base g : Float × Float}

theorem endsAt_horizontal (hd : (0.0 : Float) < d) :
    EndsAt (.real g.1) (track id "x" (m.keyframes id d f base (some g))) := by
  rw [track_x]
  cases m.move <;> simp [EndsAt, finish, hd]

/-- A move ends at its goal, and a bounce where it started. -/
theorem endsAt_vertical_iff (hd : (0.0 : Float) < d) :
    EndsAt (.real g.2) (track id "y" (m.keyframes id d f base (some g))) ↔
      (m.bounce = true → ∀ y ∈ landings d base.2, y = g.2) := by
  have hback : ¬ d < 0.0 := Binary.not_lt_of_lt hd
  have hmid := Binary.half_lt_iff hd
  have hlow := (Binary.half_pos_iff hd).2
  rw [track_y]
  cases m.move <;> cases m.bounce <;> cases hfinite : Scalar.isFinite d <;>
    simp [EndsAt, climb, landings, hd, hback, hmid, hlow, hfinite, lt_irrefl]

end Animation

/-! ## Edits -/

namespace Edit

/-- The properties that a prompt can change where an element stands. -/
def changeable : List String :=
  ["fill", "stroke", "strokeWidth", "opacity", "scale", "r", "width", "height", "text"]

theorem name_of_toFields {α : Type} {x : Extent α} :
    ∀ field ∈ x.toFields, field.1 ∈ changeable := by
  intro field hfield
  obtain ⟨⟨name, x?⟩, hmem, hfield⟩ := List.mem_filterMap.1 hfield
  obtain ⟨x, -, rfl⟩ := Option.map_eq_some_iff.1 hfield
  simp only [List.mem_cons, List.not_mem_nil, or_false, Prod.mk.injEq] at hmem
  rcases hmem with ⟨rfl, -⟩ | ⟨rfl, -⟩ | ⟨rfl, -⟩ <;> simp [changeable]

/-- The properties that put an element at a place. -/
def placing {α : Type} (goal : Option (α × α)) : Fields α :=
  match goal with
  | some (x, y) => [("x", .real x), ("y", .real y)]
  | none => []

theorem update_mem_append_iff {α : Type} {id id' : String} {props props' : Fields α}
    {frames : List (Action α)} (h : ∀ a ∈ frames, ∃ k, a = .keyframe k ∧ k.element = id') :
    .update id props ∈ update? id' props' ++ frames ↔
      props ≠ [] ∧ id = id' ∧ props = props' := by
  rw [List.mem_append, mem_update?_iff]
  constructor
  · rintro (⟨hne, heq⟩ | hframe)
    · cases heq
      exact ⟨hne, rfl, rfl⟩
    · obtain ⟨k, hk, -⟩ := h _ hframe
      cases hk
  · rintro ⟨hne, rfl, rfl⟩
    exact .inl ⟨hne, rfl⟩

section

variable {α : Type} [Scalar α] {p : Plan α} {e : Element α}

theorem name_of_changes : ∀ field ∈ changes p e, field.1 ∈ changeable := by
  simp only [changes, List.forall_mem_append]
  refine ⟨⟨⟨⟨⟨?_, ?_⟩, ?_⟩, ?_⟩, ?_⟩, ?_⟩
  · cases p.features.colour <;> cases p.features.mentions .stroke <;> simp [changeable]
  · split
    · cases p.features.mentions .stroke <;> simp [changeable]
    · simp
  · split <;> simp [changeable]
  · cases p.features.mentions .bigger <;> cases p.features.mentions .smaller <;>
      simp [changeable]
  · unfold measures
    dsimp only
    split
    · exact name_of_toFields
    · split
      · exact name_of_toFields
      · simp
  · split
    · split <;> simp [changeable]
    · simp

theorem actions_of_change (p : Plan α) (e : Element α) : (change p e).1 =
    update? e.id (changes p e ++ placing (goal? p e)) ++
      (Animation.ofFeatures p.features).keyframes e.id p.duration p.features (base p e)
        (goal? p e) := by
  unfold change placing
  cases goal? p e <;> rfl

theorem update_mem_change_iff {id : String} {props : Fields α} :
    .update id props ∈ (change p e).1 ↔
      props ≠ [] ∧ id = e.id ∧ props = changes p e ++ placing (goal? p e) := by
  rw [actions_of_change]
  exact update_mem_append_iff fun _ => Animation.keyframe_of_mem

theorem track_change (p : Plan α) (e : Element α) (property : String) :
    track e.id property (change p e).1 = track e.id property
      ((Animation.ofFeatures p.features).keyframes e.id p.duration p.features (base p e)
        (goal? p e)) := by
  have hstill : ∀ props : Fields α, track e.id property (update? e.id props) = [] := by
    refine fun props => track_eq_nil fun k hk => ?_
    cases (mem_update?_iff.1 hk).2
  rw [actions_of_change, track_append, hstill, List.nil_append]

theorem get?_placed {property : String} (hproperty : property ∈ ["x", "y"]) :
    Fields.get? (changes p e ++ placing (goal? p e)) property =
      Fields.get? (placing (goal? p e)) property := by
  have hfree : ∀ property ∈ ["x", "y"], property ∉ changeable := by decide
  have hchanges : Fields.get? (changes p e) property = none :=
    Fields.get?_eq_none fun field hfield heq =>
      hfree property hproperty (heq ▸ name_of_changes field hfield)
  rw [Fields.get?_append, hchanges, Option.none_or]

end

variable {p : Plan Float} {e : Element Float}

/-- The element is put at another height than it bounces at. -/
def Rebounds (p : Plan Float) (e : Element Float) : Prop :=
  p.mentions .bounce = true ∧ ∃ g, goal? p e = some g ∧
    ∃ y ∈ Animation.landings p.duration (base p e).2, y ≠ g.2

theorem endsAt_change_iff (hd : (0.0 : Float) < p.duration) {g : Float × Float}
    (hg : goal? p e = some g) : EndsAt (.real g.2) (track e.id "y" (change p e).1) ↔
      (p.mentions .bounce = true →
        ∀ y ∈ Animation.landings p.duration (base p e).2, y = g.2) := by
  rw [track_change, hg]
  exact Animation.endsAt_vertical_iff hd

theorem not_arrives_of_rebounds (hd : (0.0 : Float) < p.duration) (h : Rebounds p e) :
    ¬ Arrives e.id (change p e).1 := by
  obtain ⟨hbounce, g, hg, y, hy, hne⟩ := h
  intro harrives
  have hupdate : .update e.id (changes p e ++ placing (goal? p e)) ∈ (change p e).1 :=
    update_mem_change_iff.2 ⟨by simp [hg, placing], rfl, rfl⟩
  have hends := harrives _ hupdate "y" (by simp) (.real g.2)
    (by rw [get?_placed (by simp), hg]; simp [placing])
  exact hne ((endsAt_change_iff hd hg).1 hends hbounce y hy)

/-- The tracks of an edited element end where the edit puts it, unless it bounces at another
height. -/
theorem arrives_change_iff (hd : (0.0 : Float) < p.duration) :
    Arrives e.id (change p e).1 ↔ ¬ Rebounds p e := by
  refine ⟨fun harrives h => not_arrives_of_rebounds hd h harrives, ?_⟩
  intro hstays props hprops property hproperty v hv
  obtain ⟨-, -, rfl⟩ := update_mem_change_iff.1 hprops
  rw [get?_placed hproperty] at hv
  cases hg : goal? p e with
  | none => simp [hg, placing] at hv
  | some g =>
      simp only [List.mem_cons, List.not_mem_nil, or_false] at hproperty
      rcases hproperty with rfl | rfl
      · obtain rfl : .real g.1 = v := by simpa [hg, placing] using hv
        rw [track_change, hg]
        exact Animation.endsAt_horizontal hd
      · obtain rfl : .real g.2 = v := by simpa [hg, placing] using hv
        refine (endsAt_change_iff hd hg).2 fun hbounce y hy => ?_
        by_contra hne
        exact hstays ⟨hbounce, g, hg, y, hy, hne⟩

/-- A box that bounces on its way to the right. -/
def skipping : Element Float :=
  { id := "r1", kind := "rect", x := some 100.0, y := some 100.0, width := some 50.0
    height := some 40.0 }

def skippingRequest : Request Float where
  prompt := "move it right and bounce"
  artboard := some .standard
  duration := some 4.0
  selected := some skipping

theorem arrives_change_skipping : ∃ p,
    Plan.ofRequest (Settings.read fun _ => none) skippingRequest = .ok p ∧
      (0.0 : Float) < p.duration ∧ (∃ x, goal? p skipping = some (x, 100.0)) ∧
      p.mentions .bounce = true ∧ Arrives "r1" (change p skipping).1 := by
  obtain ⟨p, hp⟩ := Plan.ofRequest_returns (Settings.read fun _ => none)
    (r := skippingRequest) (Text.shortRuns_of_no_digits (by decide +kernel))
  have hfollows := Plan.follows_of_ofRequest hp
  have hmentions := hfollows.mentions
  have hduration : p.duration = 4.0 := hfollows.duration.trans (by decide +kernel)
  have hpos := Plan.zero_lt_duration hp
  have hgoal : ∃ x, goal? p skipping = some (x, 100.0) := by
    have hright : p.features.hasDirection = true := (hfollows.any _).trans (by decide +kernel)
    have hcenter : p.mentions .center = false := (hmentions _).trans (by decide +kernel)
    have hup : p.mentions .up = false := (hmentions _).trans (by decide +kernel)
    have hdown : p.mentions .down = false := (hmentions _).trans (by decide +kernel)
    rw [goal?, hright, Bool.true_or, if_pos rfl]
    simp [resolvePosition, hcenter, hup, hdown, skipping, base]
  have hbounce : p.mentions .bounce = true := (hmentions _).trans (by decide +kernel)
  refine ⟨p, hp, hpos, hgoal, hbounce, (arrives_change_iff hpos).2 ?_⟩
  rintro ⟨-, g, hg, y, hy, hne⟩
  obtain ⟨x, hx⟩ := hgoal
  cases hg.symm.trans hx
  have hfinite : Scalar.isFinite (4.0 : Float) = true := by decide +kernel
  rw [hduration, Animation.landings, if_pos hfinite, List.nil_append, List.mem_singleton] at hy
  exact hne hy

/-- A circle that bounces and is put in the middle. -/
def sinking : Element Float :=
  { id := "el-1", kind := "circle", x := some 100.0, y := some 100.0, r := some 20.0 }

def sinkingRequest : Request Float where
  prompt := "center it and bounce"
  artboard := some .standard
  duration := some 4.0
  selected := some sinking

/-- The circle is put at a height of 300, and bounces back to 100. -/
theorem not_arrives_change_sinking : ∃ p,
    Plan.ofRequest (Settings.read fun _ => none) sinkingRequest = .ok p ∧
      (0.0 : Float) < p.duration ∧ (∃ x, goal? p sinking = some (x, 300.0)) ∧
      ¬ Arrives "el-1" (change p sinking).1 := by
  obtain ⟨p, hp⟩ := Plan.ofRequest_returns (Settings.read fun _ => none)
    (r := sinkingRequest) (Text.shortRuns_of_no_digits (by decide +kernel))
  have hfollows := Plan.follows_of_ofRequest hp
  have hmentions := hfollows.mentions
  have hpos := Plan.zero_lt_duration hp
  have hgoal : ∃ x, goal? p sinking = some (x, 300.0) := by
    have hcenter : p.mentions .center = true := (hmentions _).trans (by decide +kernel)
    have hup : p.mentions .up = false := (hmentions _).trans (by decide +kernel)
    have hdown : p.mentions .down = false := (hmentions _).trans (by decide +kernel)
    have hboard : p.board = .standard := hfollows.board
    have hmiddle : (600.0 : Float) / 2.0 = 300.0 := by decide +kernel
    rw [goal?, hcenter, Bool.or_true, if_pos rfl]
    simp [resolvePosition, hcenter, hup, hdown, hboard, sinking, Artboard.standard, hmiddle]
  have hbounce : p.mentions .bounce = true := (hmentions _).trans (by decide +kernel)
  refine ⟨p, hp, hpos, hgoal, not_arrives_of_rebounds hpos ?_⟩
  obtain ⟨x, hx⟩ := hgoal
  exact ⟨hbounce, _, hx, 100.0, List.mem_append_right _ (by simp [base, sinking]),
    show (100.0 : Float) ≠ 300.0 by decide +kernel⟩

end Edit

end Storyboard
