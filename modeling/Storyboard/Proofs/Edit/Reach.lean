import Storyboard.Proofs.Edit.Arrival
import Storyboard.Proofs.Edit.Scope
/-!
# The elements that an edit reaches

An edit reaches all elements on the canvas, or the one that is meant.  The actions that reach an
element hold at most one update, which has all that the prompt changes on it.
-/

namespace Storyboard

variable {α : Type}

/-- Some actions give a property of an element a value. -/
def Carries (as : List (Action α)) (id name : String) (v : Value α) : Prop :=
  ∃ props, .update id props ∈ as ∧ Fields.get? props name = some v

namespace Edit

theorem get?_toFields {α : Type} (x : Extent α) (name : String) : Fields.get? x.toFields name =
    (if name = "r" then x.r else if name = "width" then x.width
      else if name = "height" then x.height else none).map .real := by
  obtain ⟨r, width, height⟩ := x
  split_ifs with hr hwidth hheight
  case neg =>
    refine Fields.get?_eq_none fun field hfield heq => ?_
    obtain ⟨⟨other, x?⟩, hmem, hfield⟩ := List.mem_filterMap.1 hfield
    obtain ⟨x, -, rfl⟩ := Option.map_eq_some_iff.1 hfield
    simp only [List.mem_cons, List.not_mem_nil, or_false, Prod.mk.injEq] at hmem
    rcases hmem with ⟨rfl, -⟩ | ⟨rfl, -⟩ | ⟨rfl, -⟩
    · exact hr heq.symm
    · exact hwidth heq.symm
    · exact hheight heq.symm
  all_goals
    subst name
    cases r <;> cases width <;> cases height <;> simp [Extent.toFields]

variable [Scalar α] {p : Plan α} {e : Element α} {as : List (Action α)}

/-- The edit of a plan is aimed at one element. -/
structure Aimed (p : Plan α) (e : Element α) : Prop where
  old : p.wantsCreate = false
  alone : ¬ (p.mentions .all = true ∧ changeAll p ≠ [])
  target : target? p = .ok (some e)
  named : e.id ≠ ""

/-- The edit of a plan reaches an element with some actions: each element on the canvas, if all are
meant and any changes, and else the one that it is aimed at. -/
inductive Reaches (p : Plan α) (e : Element α) : List (Action α) → Prop
  | among : p.wantsCreate = false → p.mentions .all = true ∧ changeAll p ≠ [] →
      e ∈ p.existing → Reaches p e (changeInPlace p e)
  | alone : Aimed p e → Reaches p e (change p e).1

theorem Aimed.build_eq (h : Aimed p e) (n : Nat) : build p n = .ok (forOne p n e) := by
  rw [build, h.old, if_neg Bool.false_ne_true, forAll?_eq_none_iff.2 h.alone, h.target]
  exact congrArg Except.ok (if_neg h.named)

/-- The edit of a plan holds the actions that reach an element. -/
theorem build_of_reaches (h : Reaches p e as) (n : Nat) :
    ∃ d, build p n = .ok d ∧ as <:+: d.actions := by
  cases h with
  | among hold hall hmem =>
      obtain ⟨d, hd⟩ := Option.ne_none_iff_exists'.1
        (mt forAll?_eq_none_iff.1 (not_not_intro hall) : forAll? p n ≠ none)
      refine ⟨d, ?_, ?_⟩
      · rw [build, hold, if_neg Bool.false_ne_true, hd]
      · simp only [forAll?, Option.ite_none_right_eq_some, Option.some.injEq] at hd
        obtain ⟨-, rfl⟩ := hd
        have hblock : changeInPlace p e <:+: changeAll p := by
          rw [changeAll, List.flatMap_def]
          exact List.infix_of_mem_flatten (List.mem_map_of_mem hmem)
        exact hblock.trans (List.suffix_append _ _).isInfix
  | alone haimed =>
      exact ⟨forOne p n e, haimed.build_eq n, (List.suffix_append _ _).isInfix⟩

/-- The one update among the actions that reach an element: what the prompt changes on it where it
stands, and then its place. -/
theorem exists_props (h : Reaches p e as) : ∃ placed,
    (∀ field ∈ placed, field.1 ∈ ["x", "y"]) ∧ ∀ id props, .update id props ∈ as ↔
      props ≠ [] ∧ id = e.id ∧ props = changes p e ++ placed := by
  cases h with
  | among =>
      refine ⟨[], by simp, fun id props => ?_⟩
      rw [changeInPlace, List.append_nil]
      exact update_mem_append_iff fun _ => Animation.keyframe_of_mem
  | alone =>
      refine ⟨placing (goal? p e), ?_, fun id props => update_mem_change_iff⟩
      cases goal? p e <;> simp [placing]

/-- What reaches an element, its place apart, is what the prompt changes on it. -/
theorem carries_iff (h : Reaches p e as) {name : String} (hname : name ∉ ["x", "y"])
    {v : Value α} : Carries as e.id name v ↔ Fields.get? (changes p e) name = some v := by
  obtain ⟨placed, hplaced, hupdate⟩ := exists_props h
  have hget : Fields.get? (changes p e ++ placed) name = Fields.get? (changes p e) name := by
    have hnone : Fields.get? placed name = none :=
      Fields.get?_eq_none fun field hfield heq => hname (heq ▸ hplaced field hfield)
    rw [Fields.get?_append, hnone, Option.or_none]
  constructor
  · rintro ⟨props, hprops, hv⟩
    obtain ⟨-, -, rfl⟩ := (hupdate _ _).1 hprops
    rwa [← hget]
  · intro hv
    rw [← hget] at hv
    refine ⟨_, (hupdate _ _).2 ⟨?_, rfl, rfl⟩, hv⟩
    intro hempty
    rw [hempty] at hv
    cases hv

/-- A request with a selected element, whose prompt has no word for something new or for all
elements, is an edit aimed at the selected one. -/
theorem exists_aimed (settings : Settings α) {r : Request α}
    (hdigits : Text.ShortRuns r.prompt.toList)
    (hold : Intent.createKeywords.any
      (fun k => k.isIn (Features.normalize r.prompt).toList) = false)
    (hone : Keyword.all.isIn (Features.normalize r.prompt).toList = false)
    (hselected : r.selected = some e) (hnamed : e.id ≠ "") :
    ∃ p, Plan.ofRequest settings r = .ok p ∧ p.Follows settings r ∧ Aimed p e := by
  obtain ⟨p, hp⟩ := Plan.ofRequest_returns settings hdigits
  have hfollows := Plan.follows_of_ofRequest hp
  refine ⟨p, hp, hfollows, ?_, ?_, ?_, hnamed⟩
  · rw [hfollows.create, hfollows.any, hold]
  · rw [hfollows.mentions, hone]
    simp
  · rw [target?, hfollows.selected, hselected]

/-- A circle on the canvas. -/
def dot : Element Float :=
  { id := "el-1", kind := "circle", x := some 100.0, y := some 100.0, r := some 20.0 }

/-! ## What a prompt changes -/

/-- The scale that a prompt leaves an element with, if it has a word for that. -/
def rescaled? (p : Plan α) (e : Element α) : Option α :=
  if p.mentions .bigger then some (scaled (e.scale.getD 1.0) 1.2)
  else if p.mentions .smaller then some (scaled (e.scale.getD 1.0) 0.8)
  else none

theorem get?_measures (p : Plan α) (kind name : String) : Fields.get? (measures p kind) name =
    (if kind = "circle" then
        if name = "r" then (p.features.explicitExtent kind p.board).r else none
      else if kind = "rect" then
        if name = "width" then (p.features.explicitExtent kind p.board).width
        else if name = "height" then (p.features.explicitExtent kind p.board).height
        else none
      else none).map .real := by
  unfold measures
  dsimp only
  split_ifs <;> simp_all [get?_toFields]

/-- Each property that a prompt changes, by its name. -/
theorem get?_changes (p : Plan α) (e : Element α) (name : String) :
    Fields.get? (changes p e) name =
      (((((if name = "stroke" ∧ p.mentions .stroke = true ∨
            name = "fill" ∧ p.mentions .stroke = false then
          p.features.colour.map .text else none).or
        (if name = "strokeWidth" ∧ p.mentions .stroke = true then
          (nonzero? p.features.strokeWidth).map .real else none)).or
        (if name = "opacity" then p.features.opacity.map .real else none)).or
        (if name = "scale" then (rescaled? p e).map .real else none)).or
        (Fields.get? (measures p e.kind) name)).or
        (if name = "text" ∧ e.kind = "text" then
          (content? p.features).map .text else none) := by
  simp only [changes, Fields.get?_append, rescaled?, Plan.mentions]
  refine congrArg₂ _ (congrArg₂ _ (congrArg₂ _ (congrArg₂ _ (congrArg₂ _ ?_ ?_) ?_) ?_) rfl) ?_
  · cases p.features.colour <;> by_cases hstroke : p.features.mentions .stroke = true <;>
      simp [hstroke, Fields.get?_cons, @eq_comm _ _ name]
  · cases nonzero? p.features.strokeWidth <;>
      by_cases hstroke : p.features.mentions .stroke = true <;>
      simp [hstroke, Fields.get?_cons, @eq_comm _ _ name]
  · cases p.features.opacity <;> simp [Fields.get?_cons, @eq_comm _ _ name]
  · by_cases hbigger : p.features.mentions .bigger = true <;>
      by_cases hsmaller : p.features.mentions .smaller = true <;>
      simp [hbigger, hsmaller, Fields.get?_cons, @eq_comm _ _ name]
  · cases content? p.features <;> by_cases htext : e.kind = "text" <;>
      simp [htext, Fields.get?_cons, @eq_comm _ _ name]

end Edit

end Storyboard
