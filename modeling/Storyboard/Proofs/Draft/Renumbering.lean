import Storyboard.Figure.Motion
import Storyboard.Scene
import Storyboard.Shape
import Storyboard.Proofs.Prompt.Unmarked
/-!
# Drafts that start at another number

A scene, a figure or a shape that starts after `n` is the one that starts after zero with every
placeholder moved on by `n`: in ids, parents, keyframes, gradients and their stops.
-/

namespace Storyboard

open Placeholder (textRuns raisedText runs Moves TextMoves FieldsMove textMoves_id
  textMoves_id_append textMoves_of_textRuns fieldsMove_setAll fieldsMove_append fieldsMove_cons
  fieldsMove_nil moves_object moves_list moves_text moves_real textRuns_of_not_mem_brace)
open Storyboard.Action

variable {α : Type} {n last : Nat}

/-- The second action is the first one moved on by `n`. -/
def Action.Moved (n last : Nat) : Action α → Action α → Prop
  | .add kind id props parent, .add kind' id' props' parent' =>
    kind = kind' ∧ TextMoves n last id id' ∧ FieldsMove n last props props'
      ∧ FieldsMove (α := α) n last parent.toFields parent'.toFields
  | .update id props, .update id' props' => TextMoves n last id id' ∧ FieldsMove n last props props'
  | .board props, .board props' => FieldsMove n last props props'
  | .keyframe k, .keyframe k' =>
    TextMoves n last k.element k'.element ∧ TextMoves n last k.property k'.property
      ∧ k.time = k'.time ∧ Moves n last k.value k'.value
      ∧ k.easing = k'.easing ∧ ∀ e, k.easing = some e → textRuns e = []
  | _, _ => False

/-- The second draft is the first one moved on by `n`, and the first one gives out all numbers
that occur in it. -/
structure Draft.Moved (n : Nat) (d e : Draft α) : Prop where
  summary : e.summary = d.summary
  title : e.title = d.title
  actions : List.Forall₂ (Action.Moved n d.issued) d.actions e.actions
  root : Option.Rel (TextMoves n d.issued) d.root e.root
  parts : FieldsMove n d.issued d.parts e.parts
  issued : e.issued = n + d.issued

/-! ## On the wire -/

theorem moves_wire (name : ActionName) {v w : Value α} (h : Moves n last v w) :
    Moves n last (wire name v) (wire name w) := by
  have hname : textRuns name.text = [] := textRuns_of_not_mem_brace (by cases name <;> decide)
  exact moves_object (by simp [textMoves_of_textRuns hname, h])

/-- Actions that are moved on are moved on in wire form. -/
theorem Action.Moved.toValue {a b : Action α} (h : a.Moved n last b) :
    Moves n last a.toValue b.toValue := by
  cases a with
  | add kind id props parent =>
      cases b with
      | add kind' id' props' parent' =>
          obtain ⟨rfl, hid, hprops, hparent⟩ := h
          have hkind : textRuns kind.name = [] :=
            textRuns_of_not_mem_brace (by cases kind <;> decide)
          have hfields : FieldsMove n last (("id", .text id) :: props)
              (("id", .text id') :: props') := by
            simp [hid, hprops]
          apply moves_wire
          apply moves_object
          apply fieldsMove_append ?_ hparent
          simp [textMoves_of_textRuns hkind, moves_object hfields]
      | _ => exact absurd h (by simp [Action.Moved])
  | update id props =>
      cases b with
      | update id' props' =>
          obtain ⟨hid, hprops⟩ := h
          apply moves_wire
          apply moves_object
          simp [hid, moves_object hprops]
      | _ => exact absurd h (by simp [Action.Moved])
  | board props =>
      cases b with
      | board props' => exact moves_wire _ (moves_object h)
      | _ => exact absurd h (by simp [Action.Moved])
  | keyframe k =>
      cases b with
      | keyframe k' =>
          obtain ⟨helement, hproperty, htime, hvalue, heasing, hplain⟩ := h
          apply moves_wire
          apply moves_object
          unfold keyframePayload
          apply fieldsMove_append
          · simp [helement, hproperty, htime, hvalue]
          · rw [← heasing]
            cases hk : k.easing with
            | none => exact fieldsMove_nil
            | some e => simp [textMoves_of_textRuns (hplain e hk)]
      | _ => exact absurd h (by simp [Action.Moved])

@[simp] theorem textMoves_plain {s : String} (h : '\x7b' ∉ s.toList) : TextMoves n last s s :=
  textMoves_of_textRuns (textRuns_of_not_mem_brace h)

/-! ## Colours of a plan -/

/-- No colour of the plan holds a placeholder. -/
def Plan.Painted (p : Plan α) : Prop := ∀ c ∈ p.palette.toList, textRuns c = []

namespace Plan.Painted

variable {p : Plan α} {m : Nat}

theorem pick (hp : p.Painted) (index : Nat) {default : String} (h : textRuns default = []) :
    textRuns (p.palette.pick index default) = [] := by
  unfold Palette.pick
  cases hat : p.palette.toList[index]? with
  | none => exact h
  | some c => exact hp c (List.mem_of_getElem? hat)

theorem first (hp : p.Painted) : textRuns p.palette.first = [] :=
  hp _ List.mem_cons_self

theorem final (hp : p.Painted) : textRuns p.palette.last = [] := by
  unfold Palette.last
  cases hrest : p.palette.rest.getLast? with
  | none => exact hp.first
  | some c => exact hp c (List.mem_cons_of_mem _ (List.mem_of_getLast? hrest))

theorem moves_first (hp : p.Painted) :
    Moves (α := α) n m (.text p.palette.first) (.text p.palette.first) :=
  moves_text.2 (textMoves_of_textRuns hp.first)

theorem moves_final (hp : p.Painted) :
    Moves (α := α) n m (.text p.palette.last) (.text p.palette.last) :=
  moves_text.2 (textMoves_of_textRuns hp.final)

theorem moves_cycle (hp : p.Painted) (index : Nat) :
    Moves (α := α) n m (.text (p.palette.cycle index)) (.text (p.palette.cycle index)) :=
  moves_text.2 (textMoves_of_textRuns (hp.pick _ hp.first))

theorem moves_colour (hp : p.Painted) (index : Nat) {default : String}
    (h : '\x7b' ∉ default.toList) :
    Moves n m (p.colour index default) (p.colour index default) :=
  moves_text.2 (textMoves_of_textRuns (hp.pick index (textRuns_of_not_mem_brace h)))

end Plan.Painted

/-! ## Single actions -/

theorem moved_under {a b : Action α} {parent parent' : String} (h : a.Moved n last b)
    (hparent : TextMoves n last parent parent') :
    (a.under parent).Moved n last (b.under parent') := by
  cases a with
  | add kind id props old =>
      cases b with
      | add kind' id' props' old' =>
          obtain ⟨hkind, hid, hprops, -⟩ := h
          exact ⟨hkind, hid, hprops, by simp [Parent.toFields, hparent]⟩
      | _ => exact absurd h (by simp [Action.Moved])
  | _ => cases b <;> exact h

@[simp] theorem moved_key {element element' property easing : String} {time value : α}
    (h : TextMoves n last element element') (hproperty : '\x7b' ∉ property.toList)
    (heasing : '\x7b' ∉ easing.toList) :
    (key element property time value easing).Moved n last
      (key element' property time value easing) := by
  refine ⟨h, textMoves_plain hproperty, rfl, moves_real value, rfl, fun e he => ?_⟩
  dsimp only at he
  split at he
  · simp at he
  · rw [← Option.some.inj he]
    exact textRuns_of_not_mem_brace heasing

/-- The second rig is the first one with its group and its limbs moved on. -/
structure Rig.Moved (n last : Nat) (rig rig' : Rig α) : Prop where
  group : TextMoves n last rig.group rig'.group
  named : rig.group ≠ ""
  named' : rig'.group ≠ ""
  x : rig'.x = rig.x
  y : rig'.y = rig.y
  limb : ∀ l, Option.Rel (TextMoves n last) (rig.limb l) (rig'.limb l)

theorem Rig.Moved.limb_cases {rig rig' : Rig α} (h : rig.Moved n last rig') (l : Limb) :
    (rig.limb l = none ∧ rig'.limb l = none) ∨
      ∃ s t, rig.limb l = some s ∧ rig'.limb l = some t ∧ TextMoves n last s t := by
  have hrel := h.limb l
  revert hrel
  generalize rig.limb l = s?
  generalize rig'.limb l = t?
  intro hrel
  cases hrel with
  | none => exact .inl ⟨rfl, rfl⟩
  | some hmove => exact .inr ⟨_, _, rfl, rfl, hmove⟩

variable [Scalar α]

section

variable {id id' parent parent' : String} {fill fill' stroke stroke' : Value α}
  {extra extra' : Fields α} {x y width height r strokeWidth : α}

@[simp] theorem moved_rect (hid : TextMoves n last id id') (hfill : Moves n last fill fill')
    (hstroke : Moves n last stroke stroke') (hextra : FieldsMove n last extra extra') :
    (rect id x y width height fill stroke strokeWidth extra).Moved n last
      (rect id' x y width height fill' stroke' strokeWidth extra') :=
  ⟨rfl, hid, fieldsMove_setAll (by simp [strokeFields, hfill, hstroke]) hextra, fieldsMove_nil⟩

@[simp] theorem moved_circle (hid : TextMoves n last id id') (hfill : Moves n last fill fill')
    (hstroke : Moves n last stroke stroke') (hextra : FieldsMove n last extra extra') :
    (circle id x y r fill stroke strokeWidth extra).Moved n last
      (circle id' x y r fill' stroke' strokeWidth extra') :=
  ⟨rfl, hid, fieldsMove_setAll (by simp [strokeFields, hfill, hstroke]) hextra, fieldsMove_nil⟩

@[simp] theorem moved_path {d : String} (hid : TextMoves n last id id') (hd : textRuns d = [])
    (hfill : Moves n last fill fill') (hstroke : Moves n last stroke stroke')
    (hextra : FieldsMove n last extra extra) :
    (path id x y d fill stroke strokeWidth extra).Moved n last
      (path id' x y d fill' stroke' strokeWidth extra) := by
  have hkept : ∀ keep, FieldsMove n last (extra.filter keep) (extra.filter keep) := by
    intro keep
    unfold FieldsMove at *
    rw [List.forall₂_same] at *
    exact fun f hf => hextra f (List.mem_filter.1 hf).1
  refine ⟨rfl, hid, fieldsMove_setAll ?_ (hkept _), fieldsMove_nil⟩
  simp [strokeFields, hfill, hstroke, textMoves_of_textRuns hd]

@[simp] theorem moved_group (hid : TextMoves n last id id') :
    (group id x y).Moved n last (group id' x y) :=
  ⟨rfl, hid, by simp [Fields.setAll], fieldsMove_nil⟩

@[simp] theorem moved_rect_under (hid : TextMoves n last id id')
    (hfill : Moves n last fill fill') (hstroke : Moves n last stroke stroke')
    (hparent : TextMoves n last parent parent') :
    ((rect id x y width height fill stroke strokeWidth).under parent).Moved n last
      ((rect id' x y width height fill' stroke' strokeWidth).under parent') :=
  moved_under (moved_rect hid hfill hstroke fieldsMove_nil) hparent

@[simp] theorem moved_circle_under (hid : TextMoves n last id id')
    (hfill : Moves n last fill fill') (hstroke : Moves n last stroke stroke')
    (hparent : TextMoves n last parent parent') :
    ((circle id x y r fill stroke strokeWidth).under parent).Moved n last
      ((circle id' x y r fill' stroke' strokeWidth).under parent') :=
  moved_under (moved_circle hid hfill hstroke fieldsMove_nil) hparent

@[simp] theorem moved_path_under {d : String} (hid : TextMoves n last id id')
    (hd : textRuns d = []) (hfill : Moves n last fill fill')
    (hstroke : Moves n last stroke stroke') (hparent : TextMoves n last parent parent') :
    ((path id x y d fill stroke strokeWidth).under parent).Moved n last
      ((path id' x y d fill' stroke' strokeWidth).under parent') :=
  moved_under (moved_path hid hd hfill hstroke fieldsMove_nil) hparent

end

/-! ## Fills -/

theorem Plan.painted_of_ofRequest {settings : Settings α} {r : Request α} {p : Plan α}
    (h : Plan.ofRequest settings r = .ok p) : p.Painted := by
  obtain ⟨f, -, rfl⟩ := map_eq_ok_iff.1 h
  intro c hc
  exact textRuns_of_not_mem_brace (Palette.braceless_of_mem_resolve hc)

namespace Gradient

theorem moves_stops {k : Nat} {suffix : String} {colours : List String} (hpos : 0 < k)
    (hk : k ≤ last) (hsuffix : Braceless suffix) (hcolours : ∀ c ∈ colours, textRuns c = []) :
    Moves n last (stops (α := α) (Placeholder.id k ++ suffix) colours)
      (stops (Placeholder.id (n + k) ++ suffix) colours) := by
  apply moves_list
  rw [List.forall₂_map_left_iff, List.forall₂_map_right_iff, List.forall₂_same]
  rintro ⟨colour, index⟩ hmem
  have hcolour := hcolours colour (List.fst_mem_of_mem_zipIdx hmem)
  have hstop : textRuns (suffix ++ "-stop-" ++ toString (index + 1)) = [] := by
    apply textRuns_of_not_mem_brace
    exact (hsuffix.append (by simp [Braceless])).append (braceless_toString _)
  have hid : TextMoves n last (Placeholder.id k ++ suffix ++ "-stop-" ++ toString (index + 1))
      (Placeholder.id (n + k) ++ suffix ++ "-stop-" ++ toString (index + 1)) := by
    simpa only [String.append_assoc] using textMoves_id_append hpos hk hstop
  apply moves_object
  refine fieldsMove_cons.2 ⟨⟨rfl, moves_text.2 hid⟩, ?_⟩
  simp [textMoves_of_textRuns hcolour]

theorem moves_linear {k : Nat} {suffix : String} {colours : List String} {angle : α}
    (hpos : 0 < k) (hk : k ≤ last) (hsuffix : Braceless suffix)
    (hcolours : ∀ c ∈ colours, textRuns c = []) :
    Moves n last (linear (Placeholder.id k ++ suffix) colours angle)
      (linear (Placeholder.id (n + k) ++ suffix) colours angle) := by
  have hid := textMoves_id_append (n := n) hpos hk (textRuns_of_not_mem_brace hsuffix)
  apply moves_object
  simp [hid, moves_stops hpos hk hsuffix hcolours]

theorem moves_radial {k : Nat} {suffix : String} {colours : List String} (hpos : 0 < k)
    (hk : k ≤ last) (hsuffix : Braceless suffix) (hcolours : ∀ c ∈ colours, textRuns c = []) :
    Moves n last (radial (α := α) (Placeholder.id k ++ suffix) colours)
      (radial (Placeholder.id (n + k) ++ suffix) colours) := by
  have hid := textMoves_id_append (n := n) hpos hk (textRuns_of_not_mem_brace hsuffix)
  apply moves_object
  simp [hid, moves_stops hpos hk hsuffix hcolours]

end Gradient

namespace Plan.Painted

variable {p : Plan α} {m : Nat}

theorem moves_background (hp : p.Painted) {k : Nat} (hpos : 0 < k) (hk : k ≤ m) (angle : α) :
    Moves n m (p.background (Placeholder.id k) angle)
      (p.background (Placeholder.id (n + k)) angle) := by
  unfold Plan.background Plan.backgroundIn
  split
  · exact Gradient.moves_linear hpos hk (by simp [Braceless]) hp
  · exact moves_text.2 (textMoves_of_textRuns hp.first)

theorem moves_accent (hp : p.Painted) {k : Nat} (hpos : 0 < k) (hk : k ≤ m) :
    Moves n m (p.accent (Placeholder.id k)) (p.accent (Placeholder.id (n + k))) := by
  unfold Plan.accent Plan.accentIn
  split
  · exact Gradient.moves_radial hpos hk (by simp [Braceless])
      fun c hc => hp c (List.mem_reverse.1 hc)
  · exact moves_text.2 (textMoves_of_textRuns hp.final)

end Plan.Painted

/-! ## Scenes -/

theorem forall₂_flatMap_range {β γ : Type} {R : β → γ → Prop} {f : Nat → List β}
    {g : Nat → List γ} {count : Nat} (h : ∀ i, i < count → List.Forall₂ R (f i) (g i)) :
    List.Forall₂ R ((List.range count).flatMap f) ((List.range count).flatMap g) := by
  refine List.rel_flatMap (R := fun i j => i < count ∧ i = j) ?_ ?_
  · rw [List.forall₂_same]
    exact fun i hi => ⟨List.mem_range.1 hi, rfl⟩
  · rintro i j ⟨hi, rfl⟩
    exact h i hi

namespace Scene

theorem moved_inGroup {count : Nat} {summary title : String} {as bs : List (Action α)}
    (hcount : 1 ≤ count) (h : List.Forall₂ (Action.Moved n count) as bs) :
    Draft.Moved n (inGroup 0 count summary title as) (inGroup n count summary title bs) := by
  have hroot : TextMoves n count (ref 0 1) (ref n 1) := by
    simpa [ref] using textMoves_id Nat.one_pos hcount
  have hissued : 0 + count = count := Nat.zero_add count
  unfold inGroup
  rw [hissued]
  exact ⟨rfl, rfl, .cons (moved_group hroot) h, .some hroot, fieldsMove_nil, rfl⟩

variable {p : Plan α}

theorem moved_sunset (hp : p.Painted) (n : Nat) : (sunset p 0).Moved n (sunset p n) := by
  refine moved_inGroup (by omega) ?_
  simp [ref, textMoves_id, hp.moves_background, hp.moves_accent, hp.moves_final]

theorem moved_ocean (hp : p.Painted) (n : Nat) : (ocean p 0).Moved n (ocean p n) := by
  refine moved_inGroup (by omega) ?_
  simp [ref, textMoves_id, hp.moves_background, hp.moves_accent, hp.moves_colour]

theorem moved_desert (hp : p.Painted) (n : Nat) : (desert p 0).Moved n (desert p n) := by
  refine moved_inGroup (by omega) ?_
  simp [ref, textMoves_id, hp.moves_background, hp.moves_accent, hp.moves_colour,
    Curve.textRuns_render]

theorem moved_meadow (hp : p.Painted) (n : Nat) : (meadow p 0).Moved n (meadow p n) := by
  refine moved_inGroup (by omega) ?_
  simp [ref, textMoves_id, hp.moves_background, hp.moves_colour]

theorem moved_generic (hp : p.Painted) (n : Nat) : (generic p 0).Moved n (generic p n) := by
  refine moved_inGroup (by omega) ?_
  simp [ref, textMoves_id, hp.moves_background, hp.moves_colour]

theorem moved_city (hp : p.Painted) (n : Nat) : (city p 0).Moved n (city p n) := by
  refine moved_inGroup (by omega) (.cons ?_ (forall₂_flatMap_range fun i hi => ?_))
  · simp [ref, textMoves_id, hp.moves_background]
  · have hid : TextMoves n 7 (Placeholder.id (3 + i)) (Placeholder.id (n + (3 + i))) :=
      textMoves_id (by omega) (by omega)
    simp [house, ref, textMoves_id, hid, hp.moves_colour]

theorem moved_forest (hp : p.Painted) (n : Nat) : (forest p 0).Moved n (forest p n) := by
  refine moved_inGroup (by omega)
    (List.rel_append ?_ (forall₂_flatMap_range fun i hi => ?_))
  · simp [ref, textMoves_id, hp.moves_background, hp.moves_colour]
  · have htrunk : TextMoves n 13 (Placeholder.id (4 + 2 * i)) (Placeholder.id (n + (4 + 2 * i))) :=
      textMoves_id (by omega) (by omega)
    have hcrown : TextMoves n 13 (Placeholder.id (5 + 2 * i)) (Placeholder.id (n + (5 + 2 * i))) :=
      textMoves_id (by omega) (by omega)
    simp [tree, ref, textMoves_id, htrunk, hcrown, hp.moves_colour]

theorem moved_mountain (hp : p.Painted) (n : Nat) : (mountain p 0).Moved n (mountain p n) := by
  refine moved_inGroup (by omega)
    (List.rel_append ?_ (forall₂_flatMap_range fun i hi => ?_))
  · simp [ref, textMoves_id, hp.moves_background, hp.moves_accent, hp.moves_colour,
      Curve.textRuns_render]
  · have hid : TextMoves n 7 (Placeholder.id (5 + i)) (Placeholder.id (n + (5 + i))) :=
      textMoves_id (by omega) (by omega)
    simp [driftingCloud, ref, textMoves_id, hid, hp.moves_colour, Curve.textRuns_render]

theorem moved_space (hp : p.Painted) (n : Nat) : (space p 0).Moved n (space p n) := by
  refine moved_inGroup (by omega)
    (List.rel_append (List.rel_append ?_ (forall₂_flatMap_range fun i hi => ?_)) ?_)
  · simp [ref, textMoves_id, hp.moves_background]
  · have hid : TextMoves n 15 (Placeholder.id (3 + i)) (Placeholder.id (n + (3 + i))) :=
      textMoves_id (by omega) (by omega)
    simp [star, ref, textMoves_id, hid, hp.moves_colour]
  · simp [ref, textMoves_id, hp.moves_colour]

theorem moved_neonStudio (hp : p.Painted) (n : Nat) :
    (neonStudio p 0).Moved n (neonStudio p n) := by
  refine moved_inGroup (by omega)
    (List.rel_append ?_ (forall₂_flatMap_range fun i hi => ?_))
  · simp [ref, textMoves_id, hp.moves_background]
  · have hid : TextMoves n 7 (Placeholder.id (4 + i)) (Placeholder.id (n + (4 + i))) :=
      textMoves_id (by omega) (by omega)
    simp [strip, ref, textMoves_id, hid, hp.moves_cycle]

/-- Every builder numbers its scene from where it starts. -/
theorem moved_of_builder? {a : Archetype} {make : Plan α → Nat → Draft α}
    (h : builder? a = some make) (hp : p.Painted) (n : Nat) : (make p 0).Moved n (make p n) := by
  cases a <;> simp only [builder?, Option.some.injEq, reduceCtorEq] at h <;> subst h
  case sunset => exact moved_sunset hp n
  case ocean => exact moved_ocean hp n
  case city => exact moved_city hp n
  case forest => exact moved_forest hp n
  case mountain => exact moved_mountain hp n
  case desert => exact moved_desert hp n
  case space => exact moved_space hp n
  case neonStudio => exact moved_neonStudio hp n
  case meadow => exact moved_meadow hp n
  case genericScene => exact moved_generic hp n

end Scene

/-! ## Figures -/

namespace Motion

variable {rig rig' : Rig α}

theorem moved_idling (h : rig.Moved n last rig') (b : Beats α) :
    List.Forall₂ (Action.Moved n last) (idling rig b) (idling rig' b) := by
  unfold idling
  rw [if_neg h.named, if_neg h.named', h.y]
  simp [h.group]

theorem moved_waving (h : rig.Moved n last rig') (b : Beats α) :
    List.Forall₂ (Action.Moved n last) (waving rig b) (waving rig' b) := by
  unfold waving
  rcases h.limb_cases .armRight with ⟨hs, ht⟩ | ⟨s, t, hs, ht, hmove⟩
  · simp [hs, ht]
  · simp [hs, ht, hmove]

theorem moved_swing {limb limb' : String} (h : TextMoves n last limb limb') (angle : α)
    (b : Beats α) :
    List.Forall₂ (Action.Moved n last) (swing limb angle b) (swing limb' angle b) := by
  simp [swing, h]

theorem moved_walking (h : rig.Moved n last rig') (b : Beats α) :
    List.Forall₂ (Action.Moved n last) (walking rig b) (walking rig' b) := by
  unfold walking
  rcases h.limb_cases .legLeft with ⟨hs₁, ht₁⟩ | ⟨s₁, t₁, hs₁, ht₁, hlegLeft⟩
  · simp [hs₁, ht₁]
  rcases h.limb_cases .legRight with ⟨hs₂, ht₂⟩ | ⟨s₂, t₂, hs₂, ht₂, hlegRight⟩
  · simp [hs₂, ht₂]
  rcases h.limb_cases .armLeft with ⟨hs₃, ht₃⟩ | ⟨s₃, t₃, hs₃, ht₃, harmLeft⟩
  · simp [hs₃, ht₃]
  rcases h.limb_cases .armRight with ⟨hs₄, ht₄⟩ | ⟨s₄, t₄, hs₄, ht₄, harmRight⟩
  · simp [hs₄, ht₄]
  simp only [hs₁, ht₁, hs₂, ht₂, hs₃, ht₃, hs₄, ht₄, if_neg h.named, if_neg h.named', h.x, h.y]
  refine List.rel_append (List.rel_append (List.rel_append (List.rel_append ?_ ?_) ?_) ?_) ?_
  · exact moved_swing hlegLeft _ b
  · exact moved_swing hlegRight _ b
  · exact moved_swing harmLeft _ b
  · exact moved_swing harmRight _ b
  · simp [h.group]

theorem moved_keyframes (m : Motion) (h : rig.Moved n last rig') (b : Beats α) :
    List.Forall₂ (Action.Moved n last) (m.keyframes rig b) (m.keyframes rig' b) := by
  cases m with
  | idle => exact moved_idling h b
  | wave => exact moved_waving h b
  | walk => exact moved_walking h b
  | bounce => simp [keyframes, bouncing, h.group, h.y]
  | spin => simp [keyframes, spinning, h.group]
  | pulse => simp [keyframes, pulsing, h.group]
  | waveAndIdle => exact List.rel_append (moved_waving h b) (moved_idling h b)

theorem moved_ofRig (preset : MotionPreset) (h : rig.Moved n last rig') (b : Beats α) :
    List.Forall₂ (Action.Moved n last) (ofRig preset rig b) (ofRig preset rig' b) := by
  have hframes := moved_keyframes (ofPreset preset) h b
  unfold ofRig
  generalize (ofPreset preset).keyframes rig b = ks at *
  generalize (ofPreset preset).keyframes rig' b = ks' at *
  cases hframes with
  | nil => exact moved_idling h b
  | cons hhead htail => exact .cons hhead htail

end Motion

namespace Rig

variable {p : Plan α}

theorem moved_ofPlan (p : Plan α) (n : Nat) {last : Nat} (hgroup : 1 ≤ last)
    (hlimbs : buildOf p ≠ .blob → 7 ≤ last) : (ofPlan p 0).Moved n last (ofPlan p n) where
  group := by simpa [ofPlan, ref] using textMoves_id Nat.one_pos hgroup
  named := Placeholder.id_ne_empty _
  named' := Placeholder.id_ne_empty _
  x := rfl
  y := rfl
  limb l := by
    unfold ofPlan
    dsimp only
    split
    · exact .none
    · rename_i hbuild
      have hlast := hlimbs hbuild
      apply Option.Rel.some
      cases l <;> simpa [ref] using textMoves_id (by omega) (by omega)

theorem moved_shapes (hp : p.Painted) (n : Nat) :
    List.Forall₂ (Action.Moved n (1 + (partNames (buildOf p)).length))
      ((shapes p 0).map (under (ref 0 1))) ((shapes p n).map (under (ref n 1))) := by
  unfold shapes
  cases buildOf p <;>
    simp [ref, partNames, textMoves_id, hp.moves_colour, Curve.textRuns_render, eyeColour]

theorem moved_parts (p : Plan α) (n : Nat) :
    FieldsMove n (1 + (partNames (buildOf p)).length) (draft p 0).parts (draft p n).parts := by
  unfold draft
  cases hbuild : buildOf p <;>
    simp [ofPlan, hbuild, ref, partNames, textMoves_id]

/-- A figure numbers its group and its parts from where it starts. -/
theorem moved_draft (hp : p.Painted) (n : Nat) : (draft p 0).Moved n (draft p n) := by
  have hissued : (draft p 0).issued = 1 + (partNames (buildOf p)).length := by simp [draft]
  have hgroup : TextMoves n (1 + (partNames (buildOf p)).length) (ref 0 1) (ref n 1) := by
    simpa [ref] using textMoves_id (by omega) (by omega)
  constructor
  · rfl
  · rfl
  · rw [hissued]
    exact .cons (moved_group hgroup) (moved_shapes hp n)
  · rw [hissued]
    exact .some hgroup
  · rw [hissued]
    exact moved_parts p n
  · rw [hissued]
    show n + 1 + _ = n + (1 + _)
    rw [Nat.add_assoc]

theorem moved_animated (hp : p.Painted) (n : Nat) : (animated p 0).Moved n (animated p n) := by
  have hstill := moved_draft hp n
  have hissued : (draft p 0).issued = 1 + (partNames (buildOf p)).length := by simp [draft]
  have hrig : (ofPlan p 0).Moved n (draft p 0).issued (ofPlan p n) := by
    rw [hissued]
    apply moved_ofPlan
    · omega
    · intro hbuild
      cases hb : buildOf p with
      | blob => exact absurd hb hbuild
      | robot => simp [partNames]
      | stick => simp [partNames]
  exact { hstill with
    actions := List.rel_append hstill.actions (Motion.moved_ofRig p.motion hrig p.beats) }

end Rig

/-! ## Shapes -/

namespace Shape

variable {p : Plan α}

theorem moved_element (hp : p.Painted) (n : Nat) :
    (element p (Placeholder.id 1)).Moved n 1 (element p (Placeholder.id (n + 1))) := by
  have hdashes : FieldsMove (α := α) n 1
      [("strokeDasharray", if p.mentions .animate then .text "8 6" else .null)]
      [("strokeDasharray", if p.mentions .animate then .text "8 6" else .null)] := by
    split <;> simp
  have hid : TextMoves n 1 (Placeholder.id 1) (Placeholder.id (n + 1)) :=
    textMoves_id Nat.one_pos (Nat.le_refl 1)
  have hfill : Moves n 1 (p.colour 1 p.palette.first) (p.colour 1 p.palette.first) :=
    moves_text.2 (textMoves_of_textRuns (hp.pick 1 hp.first))
  unfold element
  dsimp only
  split
  · exact moved_path hid (Curve.textRuns_render _) (by simp) hp.moves_first hdashes
  · exact moved_path hid (Curve.textRuns_render _) hfill (by simp) hdashes

theorem moved_build (hp : p.Painted) (n : Nat) : (build p 0).Moved n (build p n) where
  summary := rfl
  title := rfl
  actions := by
    have hid : TextMoves n 1 (Placeholder.id 1) (Placeholder.id (n + 1)) :=
      textMoves_id Nat.one_pos (Nat.le_refl 1)
    refine .cons (moved_element hp n) ?_
    show List.Forall₂ (Action.Moved n 1) (drawing p (Placeholder.id 1))
      (drawing p (Placeholder.id (n + 1)))
    unfold drawing
    split
    · simp [hid]
    · exact .nil
  root := .none
  parts := fieldsMove_nil
  issued := rfl

end Shape

end Storyboard
