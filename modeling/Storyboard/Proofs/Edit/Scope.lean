import Mathlib.Data.List.Forall2
import Storyboard.Proofs.Draft.Canvas
import Storyboard.Proofs.Plan
/-!
# The scope of an edit

What an edit of the canvas touches: the artboard, when the prompt gives it a colour, and after it
the elements that are meant, one after the other.  Nothing is added.
-/

namespace Storyboard

variable {α : Type}

/-- Some actions edit an element: they change it at most once, and after that set keyframes on
it. -/
inductive EditOf (id : String) : List (Action α) → Prop
  | still {frames : List (Action α)} :
      (∀ a ∈ frames, ∃ k, a = .keyframe k ∧ k.element = id) → EditOf id frames
  | changed {props : Fields α} {frames : List (Action α)} :
      (∀ a ∈ frames, ∃ k, a = .keyframe k ∧ k.element = id) →
        EditOf id (.update id props :: frames)

/-- The artboard gets the colour of a prompt that mentions a background. -/
inductive Repaint (f : Features α) : List (Action α) → Prop
  | plain : Repaint f []
  | coloured {c : String} : f.mentions .background = true → f.colour = some c →
      Repaint f [.board [("backgroundColor", .text c)]]

/-- A draft repaints the artboard, if at all, and then edits some elements in order.  It uses no
new number. -/
structure Draft.Scoped (d : Draft α) (f : Features α) (n : Nat) (ids : List String) : Prop where
  issued : d.issued = n
  actions : ∃ painted blocks, Repaint f painted ∧ List.Forall₂ EditOf ids blocks ∧
    d.actions = painted ++ blocks.flatten

theorem EditOf.added?_eq_none {id : String} {as : List (Action α)} (h : EditOf id as) :
    ∀ a ∈ as, a.added? = none := by
  have hframes : ∀ {frames : List (Action α)},
      (∀ a ∈ frames, ∃ k, a = .keyframe k ∧ k.element = id) → ∀ a ∈ frames, a.added? = none := by
    intro frames h a ha
    obtain ⟨k, rfl, -⟩ := h a ha
    rfl
  cases h with
  | still h => exact hframes h
  | changed h => exact List.forall_mem_cons.2 ⟨rfl, hframes h⟩

/-- Nothing is added within the scope of an edit. -/
theorem Draft.Scoped.added?_eq_none {d : Draft α} {f : Features α} {n : Nat} {ids : List String}
    (h : d.Scoped f n ids) : ∀ a ∈ d.actions, a.added? = none := by
  obtain ⟨-, painted, blocks, hpainted, hblocks, hactions⟩ := h
  rw [hactions, List.forall_mem_append]
  constructor
  · cases hpainted with
    | plain => exact List.forall_mem_nil _
    | coloured => exact List.forall_mem_singleton.2 rfl
  · clear hactions
    induction hblocks with
    | nil => exact List.forall_mem_nil _
    | cons hedit _ ih =>
        rw [List.flatten_cons]
        exact List.forall_mem_append.2 ⟨hedit.added?_eq_none, ih⟩

namespace Edit

theorem repaint_actions (f : Features α) : Repaint f (repaint f).1 := by
  unfold repaint
  cases hcolour : f.colour with
  | none => exact .plain
  | some c =>
      dsimp only
      split
      · rename_i hbackground
        exact .coloured hbackground hcolour
      · exact .plain

theorem editOf_update?_append {id : String} {props : Fields α} {frames : List (Action α)}
    (h : ∀ a ∈ frames, ∃ k, a = .keyframe k ∧ k.element = id) :
    EditOf id (update? id props ++ frames) := by
  unfold update?
  split
  · exact .still h
  · exact .changed h

variable [Scalar α] {p : Plan α} {n : Nat} {e : Element α}

theorem editOf_changeInPlace : EditOf e.id (changeInPlace p e) :=
  editOf_update?_append fun _ => Animation.keyframe_of_mem

theorem editOf_change : EditOf e.id (change p e).1 :=
  editOf_update?_append fun _ => Animation.keyframe_of_mem

theorem scoped_forAll? {d : Draft α} (h : forAll? p n = some d) :
    d.Scoped p.features n (p.existing.map (·.id)) := by
  simp only [forAll?, Option.ite_none_right_eq_some, Option.some.injEq] at h
  obtain ⟨-, rfl⟩ := h
  refine ⟨rfl, _, p.existing.map (changeInPlace p), repaint_actions p.features, ?_, ?_⟩
  · rw [List.forall₂_map_left_iff, List.forall₂_map_right_iff, List.forall₂_same]
    exact fun e _ => editOf_changeInPlace
  · rw [← List.flatMap_def]
    rfl

theorem scoped_forOne : (forOne p n e).Scoped p.features n [e.id] :=
  ⟨rfl, _, [(change p e).1], repaint_actions p.features, .cons editOf_change .nil, by
    rw [List.flatten_singleton]
    rfl⟩

theorem forAll?_eq_none_iff :
    forAll? p n = none ↔ ¬ (p.mentions .all = true ∧ changeAll p ≠ []) := by
  simp [forAll?]

/-- Without a word for something new, an edit touches all elements on the canvas in their order if
the prompt means all and changes any, and else the one that is meant. -/
theorem build_scoped (h : p.wantsCreate = false) :
    (p.mentions .all = true ∧ changeAll p ≠ [] →
      ∃ d, build p n = .ok d ∧ d.Scoped p.features n (p.existing.map (·.id))) ∧
    (¬ (p.mentions .all = true ∧ changeAll p ≠ []) →
      ∀ e, target? p = .ok (some e) → e.id ≠ "" →
        ∃ d, build p n = .ok d ∧ d.Scoped p.features n [e.id]) := by
  constructor
  · intro hall
    obtain ⟨d, hd⟩ := Option.ne_none_iff_exists'.1
      (mt forAll?_eq_none_iff.1 (not_not_intro hall) : forAll? p n ≠ none)
    refine ⟨d, ?_, scoped_forAll? hd⟩
    rw [build, h, if_neg (by simp), hd]
  · intro hall e htarget hnamed
    refine ⟨forOne p n e, ?_, scoped_forOne⟩
    rw [build, h, if_neg (by simp), forAll?_eq_none_iff.2 hall, htarget]
    exact congrArg Except.ok (if_neg hnamed)

/-- A canvas on which everything is to spin. -/
def whirled : Request Float where
  prompt := "spin everything"
  existing := [{ id := "a", kind := "circle" }, { id := "b" }]

/-- A selected box that is to move. -/
def shifted : Request Float where
  prompt := "move it right"
  selected := some { id := "r1" }
  existing := [{ id := "a", kind := "circle" }, { id := "r1" }]

theorem build_scoped_whirled :
    (∃ p d, Plan.ofRequest (Settings.read fun _ => none) whirled = .ok p ∧
      p.wantsCreate = false ∧ build p 0 = .ok d ∧ d.Scoped p.features 0 ["a", "b"]) ∧
    ∃ p d, Plan.ofRequest (Settings.read fun _ => none) shifted = .ok p ∧
      p.wantsCreate = false ∧ build p 0 = .ok d ∧ d.Scoped p.features 0 ["r1"] := by
  constructor
  · obtain ⟨p, hp⟩ := Plan.ofRequest_returns (Settings.read fun _ => none) (r := whirled)
      (Text.shortRuns_of_no_digits (by decide +kernel))
    have hfollows := Plan.follows_of_ofRequest hp
    have hcreate : p.wantsCreate = false :=
      hfollows.create.trans ((hfollows.any _).trans (by decide +kernel))
    have hall : p.mentions .all = true := (hfollows.mentions _).trans (by decide +kernel)
    have hspin : p.features.mentions .spin = true :=
      (hfollows.mentions _).trans (by decide +kernel)
    have hchanges : changeAll p ≠ [] := by
      simp [changeAll, changeInPlace, Animation.keyframes, Animation.ofFeatures, hspin,
        hfollows.existing, whirled]
    obtain ⟨d, hd, hscoped⟩ := (build_scoped (n := 0) hcreate).1 ⟨hall, hchanges⟩
    rw [hfollows.existing] at hscoped
    exact ⟨p, d, hp, hcreate, hd, hscoped⟩
  · obtain ⟨p, hp⟩ := Plan.ofRequest_returns (Settings.read fun _ => none) (r := shifted)
      (Text.shortRuns_of_no_digits (by decide +kernel))
    have hfollows := Plan.follows_of_ofRequest hp
    have hcreate : p.wantsCreate = false :=
      hfollows.create.trans ((hfollows.any _).trans (by decide +kernel))
    have hall : p.mentions .all = false := (hfollows.mentions _).trans (by decide +kernel)
    have htarget : target? p = .ok (some { id := "r1" }) := by
      rw [target?, hfollows.selected]
      rfl
    obtain ⟨d, hd, hscoped⟩ :=
      (build_scoped (n := 0) hcreate).2 (by simp [hall]) _ htarget (by decide)
    exact ⟨p, d, hp, hcreate, hd, hscoped⟩

end Edit

end Storyboard
