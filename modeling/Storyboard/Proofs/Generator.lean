import Storyboard.Generator
import Storyboard.Proofs.Composition.Numbering
import Storyboard.Proofs.Draft.RenumberingCanvas
/-!
# Generators that start at another number

A generator that starts after `n` gives out what it gives out when it starts after zero, numbered
anew.  So a composition, which numbers every fragment anew, is what generators that share their
numbers would have made.
-/

namespace Storyboard

open Placeholder (Readable Movable ceiling itemRuns textRuns)

variable {α : Type}

/-- The id of a root numbered anew. -/
def Fragment.renumberRoot (n : Nat) : Option String → Except Fault (Option String)
  | none => .ok none
  | some root => (if n = 0 then .ok root else Placeholder.shiftText n root).map some

/-- The ids among the parts of a fragment numbered anew. -/
def Fragment.renumberParts (n : Nat) (parts : Fields α) : Except Fault (Fields α) :=
  if n = 0 then .ok parts else Placeholder.shiftFields n parts

/-- A fragment numbered anew: its actions, its root and the ids among its parts. -/
def Fragment.renumber (n : Nat) (f : Fragment α) : Except Fault (Fragment α) := do
  let actions ← Composition.shifted n f
  let root ← renumberRoot n f.root
  let parts ← renumberParts n f.parts
  return { f with actions, root, parts }

namespace Generator

/-- Some generators repeat texts of the request: ids and addresses of the canvas, or words of the
prompt. -/
def repeatsRequest : Generator → Bool
  | photo | pan | layers | edit => true
  | _ => false

/-- An output numbered anew. -/
def renumber (n : Nat) : Option (Fragment α × Nat) → Except Fault (Option (Fragment α × Nat))
  | none => .ok none
  | some (f, issued) => (f.renumber n).map fun f => some (f, n + issued)

/-! ## What is moved on is numbered anew -/

variable {n : Nat} {d e : Draft α}

theorem renumber_zero (f : Fragment α) : f.renumber 0 = .ok f := by
  cases f with
  | mk summary actions root title parts => cases root <;> rfl

theorem moves_fragment (h : d.Moved n e) :
    Placeholder.Moves n d.issued (.list d.fragment.actions) (.list e.fragment.actions) := by
  apply Placeholder.moves_list
  unfold Draft.fragment
  rw [List.forall₂_map_left_iff, List.forall₂_map_right_iff]
  exact h.actions.imp fun a b hmoved => hmoved.toValue

/-- As long as the numbers can be written, the fragment of a draft that is moved on is the other
one numbered anew. -/
theorem renumber_of_moved (h : d.Moved n e) (hn : n ≠ 0)
    (hroom : 0 < d.issued → d.issued + n < ceiling) :
    d.fragment.renumber n = .ok e.fragment := by
  have hmoves := moves_fragment h
  have hactions : Composition.shifted n d.fragment = .ok e.fragment.actions := by
    unfold Composition.shifted
    rw [if_neg hn, Placeholder.shiftItems_eq_ok_iff]
    refine ⟨Placeholder.movable_of_within hroom hmoves.within, ?_⟩
    exact Value.list.inj hmoves.raised
  have hroot : Fragment.renumberRoot n d.fragment.root = .ok e.fragment.root := by
    show Fragment.renumberRoot n d.root = .ok e.root
    have hmove := h.root
    revert hmove
    generalize d.root = root
    generalize e.root = root'
    intro hmove
    cases hmove with
    | none => rfl
    | some hmove =>
        rw [Fragment.renumberRoot, if_neg hn, Placeholder.shiftText_eq_ok_iff.2
          ⟨Placeholder.movable_of_within hroom hmove.within, hmove.raised⟩]
        rfl
  have hparts : Fragment.renumberParts n d.fragment.parts = .ok e.fragment.parts := by
    have hobject := Placeholder.moves_object h.parts
    unfold Fragment.renumberParts
    rw [if_neg hn, Placeholder.shiftFields_eq_ok_iff]
    refine ⟨Placeholder.movable_of_within hroom hobject.within, ?_⟩
    exact Value.object.inj hobject.raised
  unfold Fragment.renumber
  rw [hactions, ok_bind, hroot, ok_bind, hparts, ok_bind]
  unfold Draft.fragment
  rw [h.summary, h.title]
  rfl

/-- The last number that a draft gives out is the one that cannot be written first. -/
theorem renumber_of_unwritable (h : d.Moved n e) (hn : n ≠ 0) (hadds : Adds 0 d.issued d.actions)
    (hpos : 0 < d.issued) (hread : d.issued < ceiling) (hroom : ceiling ≤ d.issued + n) :
    d.fragment.renumber n = .error (.tooManyDigits none) := by
  have hmoves := moves_fragment h
  have hreadable : Readable (itemRuns d.fragment.actions) := by
    intro ds hds
    obtain ⟨k, -, hk, rfl⟩ := hmoves.within ds hds
    exact Placeholder.length_digits_le (by omega)
  have hlast : Decimal.digits d.issued ∈ itemRuns d.fragment.actions := by
    have hadded : Placeholder.id d.issued ∈ addedIds d.fragment.actions := by
      unfold Draft.fragment
      rw [addedIds_map_toValue, hadds]
      exact List.mem_map_of_mem (List.mem_range'_1.2 ⟨by omega, by omega⟩)
    obtain ⟨a, ha, hid⟩ := List.mem_filterMap.1 hadded
    exact Composition.mem_itemRuns ha (Composition.mem_runs_of_addedId? hid (by simp))
  have hactions : Composition.shifted n d.fragment = .error (.tooManyDigits none) := by
    unfold Composition.shifted
    rw [if_neg hn]
    cases hshift : Placeholder.shiftItems n d.fragment.actions with
    | error fault => rw [Placeholder.shiftItems_eq_error hreadable hshift]
    | ok as =>
        have hmovable := (Placeholder.shiftItems_eq_ok_iff.1 hshift).1
        have hwritable := (hmovable _ hlast).2
        rw [Placeholder.valueOf_digits] at hwritable
        omega
  unfold Fragment.renumber
  rw [hactions]
  rfl

/-- Drafts of one generator that start at different numbers: both fail in the same way, both are
missing, or the one is moved on from the other. -/
inductive Started (n : Nat) :
    Except Fault (Option (Draft α)) → Except Fault (Option (Draft α)) → Prop
  | fails (fault : Fault) : Started n (.error fault) (.error fault)
  | missing : Started n (.ok none) (.ok none)
  | moved {d e : Draft α} (h : d.Moved n e) (hadds : Adds 0 d.issued d.actions) :
    Started n (.ok (some d)) (.ok (some e))

theorem started_of_grounded {known : List String} (h : d.Moved n e)
    (hgrounded : d.Grounded known 0) : Started n (.ok (some d)) (.ok (some e)) := by
  obtain ⟨count, hissued, hadds⟩ := hgrounded.adds
  rw [Nat.zero_add] at hissued
  rw [← hissued] at hadds
  exact .moved h hadds

variable [Scalar α]

/-- What a generator gives out: a fragment, unless its scene is missing, with the last number
given out. -/
def output (g : Generator) (p : Plan α) (n : Nat) : Except Fault (Option (Fragment α × Nat)) :=
  (g.run p n).map fun d? => d?.map fun d => (d.fragment, d.issued)

variable {p : Plan α}

theorem output_of_error {g : Generator} {fault : Fault} (h : g.draft? p n = .error fault) :
    g.output p n = .error fault := by
  unfold output run supplied
  rw [h]
  rfl

theorem output_of_none {g : Generator} (h : g.draft? p n = .ok none) :
    g.output p n = .ok none := by
  unfold output run supplied
  rw [h]
  rfl

theorem output_of_some {g : Generator} (h : g.draft? p n = .ok (some d)) :
    g.output p n = if n < d.issued ∧ ceiling ≤ d.issued then .error (.tooManyDigits none)
      else .ok (some (d.fragment, d.issued)) := by
  unfold output run supplied
  rw [h]
  dsimp only
  unfold Placeholder.supply
  split <;> rfl

theorem started_scene (hpaint : p.Painted) (a : Archetype) (n : Nat) :
    Started n (.ok ((Scene.builder? a).map fun make => make p 0))
      (.ok ((Scene.builder? a).map fun make => make p n)) := by
  cases hmake : Scene.builder? (α := α) a with
  | none => exact .missing
  | some make =>
      exact started_of_grounded (Scene.moved_of_builder? hmake hpaint n)
        (Scene.grounded_of_builder? hmake p 0)

theorem adds_rig (p : Plan α) (n : Nat) :
    Adds n ((Rig.partNames (Rig.buildOf p)).length + 1) (Rig.draft p n).actions :=
  adds_cons rfl (Rig.adds_shapes p n)

theorem started (g : Generator) (hpaint : p.Painted)
    (hplain : g.repeatsRequest = true → p.Unmarked) (n : Nat) :
    Started n (g.draft? p 0) (g.draft? p n) := by
  cases g with
  | scene => exact started_scene hpaint p.archetype n
  | sceneOf a => exact started_scene hpaint a n
  | figure => exact started_of_grounded (Rig.moved_animated hpaint n) (Rig.grounded_animated p 0)
  | rig =>
      have hissued : (Rig.draft p 0).issued = (Rig.partNames (Rig.buildOf p)).length + 1 := by
        simp [Rig.draft, Nat.add_comm]
      exact .moved (Rig.moved_draft hpaint n) (hissued ▸ adds_rig p 0)
  | shape => exact started_of_grounded (Shape.moved_build hpaint n) (Shape.grounded_build p 0)
  | photo =>
      exact started_of_grounded (Photo.moved_build hpaint (hplain rfl) n)
        (Photo.grounded_build p 0)
  | pan =>
      exact started_of_grounded (Photo.moved_pan hpaint (hplain rfl) n) (Photo.grounded_pan p 0)
  | layers =>
      exact started_of_grounded (Photo.moved_layers hpaint (hplain rfl) n)
        (Photo.grounded_layers p 0)
  | edit =>
      unfold draft?
      rcases Edit.moved_build (hplain rfl) n with ⟨fault, hzero, hn⟩ | ⟨d, e, hzero, hn, hmoved⟩
      · rw [hzero, hn]
        exact .fails fault
      · rw [hzero, hn]
        exact started_of_grounded hmoved (Edit.grounded_of_build hzero)

/-- Whatever a generator gives out when it starts after `n`, faults included, is what it gives out
when it starts after zero, numbered anew.  Generators that repeat texts of the request need these
to be free of placeholders. -/
theorem output_eq_renumber (g : Generator) {settings : Settings α} {r : Request α} {p : Plan α}
    (hp : Plan.ofRequest settings r = .ok p) (hr : g.repeatsRequest = true → r.Unmarked)
    (n : Nat) : g.output p n = g.output p 0 >>= renumber n := by
  by_cases hn : n = 0
  · subst hn
    cases g.output p 0 with
    | error fault => rfl
    | ok output =>
        cases output with
        | none => rfl
        | some output =>
            obtain ⟨f, issued⟩ := output
            rw [ok_bind, renumber, renumber_zero, map_ok, Nat.zero_add]
  have hstarted := g.started (Plan.painted_of_ofRequest hp)
    (fun hrepeats => Plan.unmarked_of_ofRequest (hr hrepeats) hp) n
  generalize hzero : g.draft? p 0 = d₀ at hstarted
  generalize hlater : g.draft? p n = dₙ at hstarted
  cases hstarted with
  | fails fault =>
      rw [output_of_error hzero, output_of_error hlater]
      rfl
  | missing =>
      rw [output_of_none hzero, output_of_none hlater]
      rfl
  | @moved d e h hadds =>
      rw [output_of_some hzero, output_of_some hlater, h.issued]
      by_cases hpos : 0 < d.issued
      · by_cases hread : d.issued < ceiling
        · by_cases hroom : d.issued + n < ceiling
          · rw [if_neg (by omega), if_neg (by omega), ok_bind, renumber,
              renumber_of_moved h hn fun _ => hroom]
            rfl
          · rw [if_pos (by omega), if_neg (by omega), ok_bind, renumber,
              renumber_of_unwritable h hn hadds hpos hread (by omega)]
            rfl
        · rw [if_pos (by omega), if_pos (by omega)]
          rfl
      · rw [if_neg (by omega), if_neg (by omega), ok_bind, renumber,
          renumber_of_moved h hn fun hcontra => absurd hcontra hpos]
        rfl

/-- A request for a photo of the selected image. -/
def keepsake : Request Rat where
  prompt := "animate this photo with parallax"
  selected := some { id := "picture", kind := "image", href := some "picture.png" }

theorem unmarked_keepsake : keepsake.Unmarked where
  prompt := Placeholder.textRuns_of_not_mem_brace (by simp [keepsake])
  ids := by
    intro e he
    rw [List.mem_singleton.1 he]
    exact Placeholder.textRuns_of_not_mem_brace (by simp)
  href := by
    intro e he href hhref
    rw [← Option.some.inj he] at hhref
    rw [← Option.some.inj hhref]
    exact Placeholder.textRuns_of_not_mem_brace (by simp)

/-- The layers of the picture with the ids from eight on. -/
theorem output_eq_renumber_keepsake :
    ∃ p, Plan.ofRequest (Settings.read fun _ => none) keepsake = .ok p ∧ keepsake.Unmarked ∧
      layers.output p 7 = layers.output p 0 >>= renumber 7 := by
  have hcount : Measure.count (Features.normalize keepsake.prompt).toList = .ok 1 := by rfl
  obtain ⟨p, hp⟩ : ∃ p : Plan Rat,
      Plan.ofRequest (Settings.read fun _ => none) keepsake = .ok p := by
    unfold Plan.ofRequest Features.ofText
    dsimp only
    rw [hcount]
    exact ⟨_, rfl⟩
  exact ⟨p, hp, unmarked_keepsake, output_eq_renumber layers hp (fun _ => unmarked_keepsake) 7⟩

end Generator

end Storyboard
