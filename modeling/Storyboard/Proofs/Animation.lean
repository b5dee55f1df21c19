import Storyboard.Animation
import Storyboard.Proofs.Binary.Half
import Storyboard.Proofs.Prompt.Digits
import Storyboard.Proofs.Track
/-!
# Tracks of an animated element

The motions of an element share its tracks: a move and a bounce both set `y`.  Every track but that
one has the keyframes of a single motion, at zero, at the end and maybe half way between.
-/

namespace Storyboard.Animation

section

variable {α : Type} [Scalar α] (m : Animation) (id : String) (d : α) (f : Features α)
  (base : α × α) (goal : Option (α × α))

/-- Where a move ends on the horizontal axis. -/
def finish : α :=
  match goal with
  | some g => g.1
  | none => base.1 + (if f.mentions .left then -reach else reach)

/-- The keyframes of a move on the vertical axis, which it may leave alone. -/
def climb : List (α × Value α) :=
  match goal with
  | some g => [(0.0, .real base.2), (d, .real g.2)]
  | none =>
    if f.mentions .up then [(0.0, .real base.2), (d, .real (base.2 + -reach))]
    else if f.mentions .down then [(0.0, .real base.2), (d, .real (base.2 + reach))]
    else []

theorem track_x : track id "x" (m.keyframes id d f base goal) =
    if m.move then [(0.0, .real base.1), (d, .real (finish f base goal))] else [] := by
  cases goal <;> simp [keyframes, moving, track_ite, finish]

theorem track_y : track id "y" (m.keyframes id d f base goal) =
    (if m.move then climb d f base goal else []) ++
      (if m.bounce then [(0.0, .real base.2), (d * 0.5, .real (base.2 - 80.0)), (d, .real base.2)]
        else []) := by
  cases goal <;> simp [keyframes, moving, track_ite, climb]

theorem track_rotation : track id "rotation" (m.keyframes id d f base goal) =
    if m.spin then [(0.0, .real 0.0), (d, .real 360.0)] else [] := by
  cases goal <;> simp [keyframes, moving, track_ite]

theorem track_scale : track id "scale" (m.keyframes id d f base goal) =
    if m.pulse then [(0.0, .real 1.0), (d * 0.5, .real 1.15), (d, .real 1.0)] else [] := by
  cases goal <;> simp [keyframes, moving, track_ite]

theorem track_opacity : track id "opacity" (m.keyframes id d f base goal) =
    if m.fade then [(0.0, .real 1.0), (d, .real 0.0)] else [] := by
  cases goal <;> simp [keyframes, moving, track_ite]

/-- Nothing else is moved. -/
theorem track_other {element property : String}
    (h : element = id → property ∉ ["x", "y", "rotation", "scale", "opacity"]) :
    track element property (m.keyframes id d f base goal) = [] := by
  have hkey : ∀ name ∈ ["x", "y", "rotation", "scale", "opacity"],
      ¬ (id = element ∧ name = property) := by
    rintro name hname ⟨rfl, rfl⟩
    exact h rfl hname
  simp only [List.forall_mem_cons] at hkey
  cases goal <;> simp [keyframes, moving, track_ite, hkey]

/-- A move on the vertical axis starts at zero and ends with the plan. -/
theorem climb_cases : climb d f base goal = [] ∧
      ¬ (goal.isSome = true ∨ f.mentions .up = true ∨ f.mentions .down = true) ∨
    (∃ v, climb d f base goal = [(0.0, .real base.2), (d, v)]) ∧
      (goal.isSome = true ∨ f.mentions .up = true ∨ f.mentions .down = true) := by
  unfold climb
  cases goal with
  | some g => exact .inr ⟨⟨_, rfl⟩, .inl rfl⟩
  | none => cases f.mentions .up <;> cases f.mentions .down <;> simp

/-- A move and a bounce that both set the vertical axis. -/
structure Clashing : Prop where
  move : m.move = true
  bounce : m.bounce = true
  climbs : goal.isSome = true ∨ f.mentions .up = true ∨ f.mentions .down = true

end

/-! ## Times that are apart -/

section

variable {d : Float}

theorem lt_irrefl (x : Float) : ¬ x < x := fun h => Binary.not_lt_of_lt h h

theorem apart_half_iff (hd : (0.0 : Float) < d) :
    Apart (d * 0.5) d ↔ Scalar.isFinite d = true :=
  (or_iff_left (Binary.half_lt_iff hd).2).trans (Binary.half_lt_iff hd).1

theorem apart_zero_half_iff (hd : (0.0 : Float) < d) : Apart 0.0 (d * 0.5) ↔ 5e-324 < d :=
  (or_iff_left (Binary.half_pos_iff hd).2).trans (Binary.half_pos_iff hd).1

variable {u v w : Value Float}

theorem pairwise_pair (hd : (0.0 : Float) < d) :
    [(0.0, u), (d, v)].Pairwise fun m m' => Apart m.1 m'.1 := by
  simp [show Apart 0.0 d from .inl hd]

theorem pairwise_triple_iff (hd : (0.0 : Float) < d) :
    ([(0.0, u), (d * 0.5, v), (d, w)].Pairwise fun m m' => Apart m.1 m'.1) ↔
      5e-324 < d ∧ Scalar.isFinite d = true := by
  simp [show Apart 0.0 d from .inl hd, apart_half_iff hd, apart_zero_half_iff hd]

variable {m : Animation} {id : String} {f : Features Float} {base : Float × Float}
  {goal : Option (Float × Float)}

theorem not_unambiguous_of_clashing (h : m.Clashing f goal) :
    ¬ Unambiguous (m.keyframes id d f base goal) := by
  intro hall
  have hy := hall id "y"
  obtain ⟨-, hnone⟩ | ⟨⟨v, hclimb⟩, -⟩ := climb_cases d f base goal
  · exact hnone h.climbs
  · rw [track_y, h.move, h.bounce, if_pos rfl, if_pos rfl, hclimb] at hy
    have hstart := (List.pairwise_cons.1 hy).1 (0.0, .real base.2) (by simp)
    exact hstart.elim (lt_irrefl _) (lt_irrefl _)

theorem pairwise_vertical (hd : (0.0 : Float) < d) (hclash : ¬ m.Clashing f goal)
    (hhalf : m.bounce = true → 5e-324 < d ∧ Scalar.isFinite d = true) :
    (track id "y" (m.keyframes id d f base goal)).Pairwise fun m m' => Apart m.1 m'.1 := by
  rw [track_y]
  cases hbounce : m.bounce with
  | false =>
      simp only [Bool.false_eq_true, if_false, List.append_nil]
      split
      · obtain ⟨hclimb, -⟩ | ⟨⟨v, hclimb⟩, -⟩ := climb_cases d f base goal <;> rw [hclimb]
        · exact .nil
        · exact pairwise_pair hd
      · exact .nil
  | true =>
      have hclimb : (if m.move then climb d f base goal else []) = [] := by
        refine ite_eq_right_iff.2 fun hmove => ?_
        obtain ⟨hclimb, -⟩ | ⟨-, hclimbs⟩ := climb_cases d f base goal
        · exact hclimb
        · exact absurd ⟨hmove, hbounce, hclimbs⟩ hclash
      rw [hclimb, List.nil_append, if_pos rfl]
      exact (pairwise_triple_iff hd).2 (hhalf hbounce)

/-- The keyframes of an element say at one time no more than one value, unless a move and a bounce
both set the vertical axis or the duration has no time half way to its end. -/
theorem unambiguous_keyframes_iff (hd : (0.0 : Float) < d) :
    Unambiguous (m.keyframes id d f base goal) ↔ ¬ m.Clashing f goal ∧
      (m.bounce = true ∨ m.pulse = true → 5e-324 < d ∧ Scalar.isFinite d = true) := by
  constructor
  · refine fun hall => ⟨fun h => not_unambiguous_of_clashing h hall, ?_⟩
    rintro (hbounce | hpulse)
    · have hy := hall id "y"
      rw [track_y, hbounce, if_pos rfl] at hy
      exact (pairwise_triple_iff hd).1 (List.pairwise_append.1 hy).2.1
    · have hscale := hall id "scale"
      rw [track_scale, hpulse, if_pos rfl] at hscale
      exact (pairwise_triple_iff hd).1 hscale
  · rintro ⟨hclash, hhalf⟩ element property
    by_cases hmoved : element = id ∧ property ∈ ["x", "y", "rotation", "scale", "opacity"]
    · obtain ⟨rfl, hproperty⟩ := hmoved
      have hpair : ∀ {b : Bool} {u v : Value Float},
          (if b then [(0.0, u), (d, v)] else []).Pairwise fun m m' => Apart m.1 m'.1 := by
        intro b u v
        cases b
        · exact .nil
        · exact pairwise_pair hd
      simp only [List.mem_cons, List.not_mem_nil, or_false] at hproperty
      rcases hproperty with rfl | rfl | rfl | rfl | rfl
      · rw [track_x]
        exact hpair
      · exact pairwise_vertical hd hclash fun hbounce => hhalf (.inl hbounce)
      · rw [track_rotation]
        exact hpair
      · rw [track_scale]
        split
        · rename_i hpulse
          exact (pairwise_triple_iff hd).2 (hhalf (.inr hpulse))
        · exact .nil
      · rw [track_opacity]
        exact hpair
    · rw [track_other m id d f base goal fun hid hproperty => hmoved ⟨hid, hproperty⟩]
      exact .nil

/-- All motions at once; the element moves to the right. -/
theorem unambiguous_keyframes_medley : (0.0 : Float) < 4.0 ∧ ∃ f : Features Float,
    Features.ofText "move and bounce and spin and pulse and fade" = .ok f ∧
      ofFeatures f = ⟨true, true, true, true, true⟩ ∧
      Unambiguous ((ofFeatures f).keyframes "a" 4.0 f (100.0, 100.0)) := by
  have hpos : (0.0 : Float) < 4.0 := by decide
  obtain ⟨f, hf⟩ : ∃ f : Features Float,
      Features.ofText "move and bounce and spin and pulse and fade" = .ok f :=
    Features.ofText_returns (Text.shortRuns_of_no_digits (by decide +kernel))
  have hmentions := Features.mentions_of_ofText hf
  have hlevel : ∀ k ∈ [.up, .down], f.mentions k = false := by
    rw [hmentions]
    decide +kernel
  refine ⟨hpos, f, hf, ?_, (unambiguous_keyframes_iff hpos).2 ⟨?_, fun _ => ?_⟩⟩
  · unfold ofFeatures
    simp only [Features.hasDirection, Features.any, hmentions]
    decide +kernel
  · intro hclash
    simpa [hlevel .up, hlevel .down] using hclash.climbs
  · exact ⟨by decide +kernel, by decide +kernel⟩

/-- A move down and a bounce both have a keyframe on the vertical axis at the start. -/
theorem not_unambiguous_keyframes_tumble : (0.0 : Float) < 4.0 ∧ ∃ f : Features Float,
    Features.ofText "move down and bounce" = .ok f ∧
      ¬ Unambiguous ((ofFeatures f).keyframes "a" 4.0 f (100.0, 100.0)) := by
  obtain ⟨f, hf⟩ : ∃ f : Features Float, Features.ofText "move down and bounce" = .ok f :=
    Features.ofText_returns (Text.shortRuns_of_no_digits (by decide +kernel))
  have hmentions := Features.mentions_of_ofText hf
  have hsaid : ∀ k ∈ [.move, .bounce, .down], f.mentions k = true := by
    rw [hmentions]
    decide +kernel
  refine ⟨by decide, f, hf, not_unambiguous_of_clashing ⟨?_, ?_, ?_⟩⟩
  · simp [ofFeatures, hsaid .move]
  · exact hsaid .bounce (by simp)
  · exact .inr (.inr (hsaid .down (by simp)))

end

end Storyboard.Animation
