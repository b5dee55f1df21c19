import Mathlib.Data.Set.List
import Storyboard.Generator
import Storyboard.Proofs.Edit.Departure
/-!
# New elements, one by one

An edit that makes new elements makes as many as the prompt says, all of one kind.  They take the
next ids in order, each with its own keyframes right after it, and stand where the layout puts
them.  The summary names their number.
-/

namespace Storyboard

open Storyboard.Action
open Placeholder (ceiling)

/-! ## Texts with one number -/

namespace Text

/-- There is no digit in a text. -/
def Wordy (s : String) : Prop := s.toList.any isDigit = false

instance : DecidablePred Wordy := fun s =>
  inferInstanceAs (Decidable (s.toList.any isDigit = false))

/-- A text names a number, and has no other digits. -/
def Names (s : String) (k : Nat) : Prop :=
  ∃ before after, s = before ++ toString k ++ after ∧ Wordy before ∧ Wordy after

theorem Wordy.append {s t : String} (hs : Wordy s) (ht : Wordy t) : Wordy (s ++ t) := by
  rw [Wordy, String.toList_append, List.any_append, hs, ht]
  rfl

theorem Names.append_left {s t : String} {k : Nat} (h : Names s k) (ht : Wordy t) :
    Names (t ++ s) k := by
  obtain ⟨before, after, rfl, hbefore, hafter⟩ := h
  exact ⟨t ++ before, after, by simp only [String.append_assoc], ht.append hbefore, hafter⟩

theorem Names.append_right {s t : String} {k : Nat} (h : Names s k) (ht : Wordy t) :
    Names (s ++ t) k := by
  obtain ⟨before, after, rfl, hbefore, hafter⟩ := h
  exact ⟨before, after ++ t, by simp only [String.append_assoc], hbefore, hafter.append ht⟩

end Text

namespace Edit

section

variable {α : Type} [Scalar α]

/-- A plan makes new elements: it has a word for that, or else nothing on the canvas is meant. -/
def Creates (p : Plan α) : Prop :=
  p.wantsCreate = true ∨ ¬ (p.mentions .all = true ∧ changeAll p ≠ []) ∧
    ∃ e?, target? p = .ok e? ∧ ∀ e ∈ e?, e.id = ""

theorem build_of_creates {p : Plan α} (h : Creates p) (n : Nat) : build p n = .ok (forNew p n) := by
  unfold build
  by_cases hcreate : p.wantsCreate = true
  · rw [if_pos hcreate]
  · obtain ⟨hall, e?, htarget, hnameless⟩ := h.resolve_left hcreate
    rw [if_neg hcreate, forAll?_eq_none_iff.2 hall, htarget]
    cases e? with
    | none => rfl
    | some e => exact congrArg Except.ok (if_pos (hnameless e rfl))

/-- No other plan is edited by new elements. -/
theorem creates_of_added {p : Plan α} {n : Nat} {d : Draft α} (h : build p n = .ok d)
    (hadded : ∃ a ∈ d.actions, a.added? ≠ none) : Creates p := by
  by_contra hnot
  -- Any other edit stays within elements that are on the canvas already, and adds none.
  obtain ⟨hcreate, htarget⟩ := not_or.1 hnot
  obtain ⟨hall, hone⟩ := build_scoped (n := n) (Bool.eq_false_iff.2 hcreate)
  obtain ⟨ids, hscoped⟩ : ∃ ids, d.Scoped p.features n ids := by
    by_cases hmeant : p.mentions .all = true ∧ changeAll p ≠ []
    · obtain ⟨d', hd', hscoped⟩ := hall hmeant
      cases h.symm.trans hd'
      exact ⟨_, hscoped⟩
    · have hbuild := h
      rw [build, if_neg hcreate, forAll?_eq_none_iff.2 hmeant] at hbuild
      obtain ⟨e?, he?, -⟩ := bind_eq_ok_iff.1 hbuild
      obtain ⟨e, he, hnamed⟩ : ∃ e ∈ e?, e.id ≠ "" := by
        by_contra hnameless
        exact htarget ⟨hmeant, e?, he?, by simpa using hnameless⟩
      rw [Option.mem_def.1 he] at he?
      obtain ⟨d', hd', hscoped⟩ := hone hmeant e he? hnamed
      cases h.symm.trans hd'
      exact ⟨_, hscoped⟩
  obtain ⟨a, ha, hne⟩ := hadded
  exact hne (hscoped.added?_eq_none a ha)

/-! ## The summary -/

theorem names_note (k : Nat) :
    Text.Names ("Created " ++ toString k ++ (if k = 1 then " element." else " elements.")) k := by
  refine ⟨_, _, rfl, by decide +kernel, ?_⟩
  split <;> decide +kernel

omit [Scalar α] in
theorem repaint_notes (f : Features α) :
    (repaint f).2 = [] ∨ (repaint f).2 = ["Updated the artboard background."] := by
  unfold repaint
  split
  · split
    · exact .inr rfl
    · exact .inl rfl
  · exact .inl rfl

/-- The summary of new elements names their number. -/
theorem names_summary (p : Plan α) (n : Nat) :
    Text.Names (forNew p n).summary p.features.count := by
  have hblank : Text.Wordy " " := by decide +kernel
  have hnames := names_note p.features.count
  have hcreated : (create p n).2 ≠ [] ∧
      Text.Names (" ".intercalate (create p n).2) p.features.count := by
    refine ⟨List.cons_ne_nil _ _, ?_⟩
    simp only [create]
    by_cases hmoves : (Animation.ofFeatures p.features false).any = true
    · rw [if_pos hmoves, String.intercalate_cons_cons, String.intercalate_singleton]
      exact (hnames.append_right hblank).append_right (by decide +kernel)
    · rw [if_neg hmoves, String.intercalate_singleton]
      exact hnames
  show Text.Names (" ".intercalate ((repaint p.features).2 ++ (create p n).2)) p.features.count
  rcases repaint_notes p.features with hnotes | hnotes
  · rw [hnotes, List.nil_append]
    exact hcreated.2
  · rw [hnotes, List.singleton_append, String.intercalate_cons_of_ne_nil hcreated.1]
    exact hcreated.2.append_left (Text.Wordy.append (by decide +kernel) hblank)

/-! ## Centres -/

/-- The centre of a new element: a box has its corner for its place. -/
inductive Centred (props : Fields α) : ElementKind → α × α → Prop
  | box {x y width height : α} {centre : α × α}
      (hx : Fields.get? props "x" = some (.real x))
      (hy : Fields.get? props "y" = some (.real y))
      (hwidth : Fields.get? props "width" = some (.real width))
      (hheight : Fields.get? props "height" = some (.real height))
      (hcentre : (x + width / 2.0, y + height / 2.0) = centre) : Centred props .rect centre
  | point {kind : ElementKind} {centre : α × α} (hkind : kind ≠ .rect)
      (hx : Fields.get? props "x" = some (.real centre.1))
      (hy : Fields.get? props "y" = some (.real centre.2)) : Centred props kind centre

/-- No words for a place apply: there are none, or there are several elements. -/
def Unsteered (p : Plan α) : Prop :=
  p.features.hasDirection = false ∧ p.mentions .center = false ∨ 1 < p.features.count

omit [Scalar α] in
theorem shapeKind_cases (f : Features α) :
    shapeKind f = .circle ∨ shapeKind f = .rect ∨ shapeKind f = .text := by
  unfold shapeKind
  split_ifs <;> simp

/-- What is taken off a number can be added again. -/
def Cancels (α : Type) [Scalar α] : Prop := ∀ a b : α, a - b + b = a

theorem cancels_rat : Cancels Rat := fun a b => sub_add_cancel a b

/-- A new element is of the kind that the prompt names.  Without words for a place its centre is
where the layout puts it. -/
theorem fresh_centred (p : Plan α) (id : String) (index : Nat) :
    ∃ props, (fresh p id index).1 = .add (shapeKind p.features) id props .unstated ∧
      (Unsteered p → (shapeKind p.features = .rect → Cancels α) →
        Centred props (shapeKind p.features)
          (Arrangement.place p.layout p.features.count p.width p.height index)) := by
  have hsteered : Unsteered p → (p.features.count == 1 &&
      (p.features.hasDirection || p.features.mentions .center)) = false := by
    rintro (⟨hdirection, hcenter⟩ | hcount)
    · have hcenter' : p.features.mentions .center = false := hcenter
      rw [hdirection, hcenter', Bool.or_self, Bool.and_false]
    · rw [beq_false_of_ne (by omega), Bool.false_and]
  unfold fresh
  dsimp only
  rcases shapeKind_cases p.features with hkind | hkind | hkind <;> rw [hkind] <;> dsimp only <;>
    refine ⟨_, rfl, fun hplain hexact => ?_⟩ <;>
    simp only [hsteered hplain, Bool.false_eq_true, if_false]
  · exact .point (by decide) ((get?_setAll_extras (by decide)).trans rfl)
      ((get?_setAll_extras (by decide)).trans rfl)
  · refine .box ((get?_setAll_extras (by decide)).trans rfl)
      ((get?_setAll_extras (by decide)).trans rfl) ((get?_setAll_extras (by decide)).trans rfl)
      ((get?_setAll_extras (by decide)).trans rfl) ?_
    rw [hexact rfl, hexact rfl]
  · exact .point (by decide) ((get?_setAll_extras (by decide)).trans rfl)
      ((get?_setAll_extras (by decide)).trans rfl)

/-! ## The whole edit -/

/-- A draft makes the new elements of a plan.  After the artboard each of them comes with its own
keyframes, under the next id, and in exact arithmetic its centre is its place in the layout. -/
structure Created (p : Plan α) (n : Nat) (d : Draft α) : Prop where
  issued : d.issued = n + p.features.count
  summary : Text.Names d.summary p.features.count
  blocks : ∃ painted, ∃ props : Nat → Fields α, ∃ frames : Nat → List (Keyframe α),
    Repaint p.features painted ∧
    d.actions = painted ++ (List.range p.features.count).flatMap (fun i =>
      .add (shapeKind p.features) (Placeholder.id (n + 1 + i)) (props i) .unstated
        :: (frames i).map .keyframe) ∧
    (∀ i, ∀ k ∈ frames i, k.element = Placeholder.id (n + 1 + i)) ∧
    (Unsteered p → (shapeKind p.features = .rect → Cancels α) → ∀ i < p.features.count, ∃ centre,
      (Arrangement.places p.layout p.features.count p.width p.height)[i]? = some centre ∧
        Centred (props i) (shapeKind p.features) centre)

theorem exists_frames (p : Plan α) (n index : Nat) : ∃ frames : List (Keyframe α),
    ownFrames p n index = frames.map .keyframe ∧
      ∀ k ∈ frames, k.element = Placeholder.id (n + 1 + index) := by
  have hall : ∀ a ∈ ownFrames p n index,
      ∃ k, a = .keyframe k ∧ k.element = Placeholder.id (n + 1 + index) :=
    fun _ => Animation.keyframe_of_mem
  obtain ⟨frames, hframes⟩ : ownFrames p n index ∈ Set.range (List.map Action.keyframe) := by
    rw [Set.range_list_map]
    intro a ha
    obtain ⟨k, rfl, -⟩ := hall a ha
    exact ⟨k, rfl⟩
  refine ⟨frames, hframes.symm, fun k hk => ?_⟩
  obtain ⟨k', heq, helement⟩ := hall (.keyframe k) (hframes ▸ List.mem_map_of_mem hk)
  cases heq
  exact helement

theorem created_forNew (p : Plan α) (n : Nat) : Created p n (forNew p n) := by
  choose props hprops hcentred using fun i => fresh_centred p (Placeholder.id (n + 1 + i)) i
  choose frames hframes hown using exists_frames p n
  refine ⟨rfl, names_summary p n, _, props, frames, repaint_actions p.features, ?_, hown, ?_⟩
  · have hblock : freshAnimated p n = fun i =>
        .add (shapeKind p.features) (Placeholder.id (n + 1 + i)) (props i) .unstated
          :: (frames i).map .keyframe := by
      funext i
      rw [freshAnimated_eq_cons, hprops, hframes]
    rw [← hblock]
    rfl
  · intro hplain hexact i hi
    refine ⟨_, ?_, hcentred i hplain hexact⟩
    rw [Arrangement.places, Nat.max_eq_right (Nat.one_le_of_lt hi), List.getElem?_map,
      List.getElem?_range hi, Option.map_some]

/-- A plan that makes new elements makes as many as its prompt says, one after the other, unless
one of their ids cannot be written. -/
theorem created_of_creates {p : Plan α} (h : Creates p) (n : Nat) :
    ∃ d, Created p n d ∧ Generator.edit.run p n =
      if 0 < p.features.count → n + p.features.count < ceiling then .ok (some d)
        else .error (.tooManyDigits none) := by
  have hdraft : Generator.edit.draft? p n = .ok (some (forNew p n)) := by
    rw [Generator.draft?, build_of_creates h]
    rfl
  exact ⟨_, created_forNew p n, Generator.run_of_draft? hdraft rfl⟩

end

/-- Three boxes in a column, which pulse. -/
def stacked : Request Rat where
  prompt := "add 3 squares in a column that pulse"
  artboard := some .standard

theorem plan_stacked : ∃ p, Plan.ofRequest (Settings.read fun _ => none) stacked = .ok p ∧
    Creates p ∧ p.features.count = 3 := by
  obtain ⟨p, hp, hfollows, -⟩ := exists_creating (Settings.read fun _ => none) (r := stacked)
    (Text.shortRuns_of_length_le (by decide +kernel)) (by decide +kernel) 0
  refine ⟨p, hp, .inl ?_, hfollows.count_eq (by decide +kernel)⟩
  rw [hfollows.create, hfollows.any]
  decide +kernel

/-- The boxes with the ids from eight to ten; in a column their centres are as in the layout. -/
theorem created_of_creates_stacked : Cancels Rat ∧
    ∃ p, Plan.ofRequest (Settings.read fun _ => none) stacked = .ok p ∧ Creates p ∧ Unsteered p ∧
      ∃ d, Created p 7 d ∧ Generator.edit.run p 7 =
        if 0 < p.features.count → 7 + p.features.count < ceiling then .ok (some d)
          else .error (.tooManyDigits none) := by
  obtain ⟨p, hp, hcreates, hcount⟩ := plan_stacked
  exact ⟨cancels_rat, p, hp, hcreates, .inr (by omega), created_of_creates hcreates 7⟩

/-- Two numbers before the last one that can be written, the third box has no id. -/
theorem not_created_stacked : ∃ p, Plan.ofRequest (Settings.read fun _ => none) stacked = .ok p ∧
    Creates p ∧ Generator.edit.run p (ceiling - 3) = .error (.tooManyDigits none) ∧
      ¬ ∃ d, Generator.edit.run p (ceiling - 3) = .ok (some d) ∧ Created p (ceiling - 3) d := by
  obtain ⟨p, hp, hcreates, hcount⟩ := plan_stacked
  have hdraft : Generator.edit.draft? p (ceiling - 3) = .ok (some (forNew p (ceiling - 3))) := by
    rw [Generator.draft?, build_of_creates hcreates]
    rfl
  have hissued : (forNew p (ceiling - 3)).issued = ceiling - 3 + p.features.count := rfl
  have hfails : Generator.edit.run p (ceiling - 3) = .error (.tooManyDigits none) := by
    rw [Generator.run_of_draft? hdraft hissued, if_neg]
    omega
  refine ⟨p, hp, hcreates, hfails, ?_⟩
  rintro ⟨d, hruns, -⟩
  rw [hfails] at hruns
  cases hruns

end Edit

end Storyboard
