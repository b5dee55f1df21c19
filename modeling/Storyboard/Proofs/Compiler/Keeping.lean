import Storyboard.Proofs.Compiler.Carriage
import Storyboard.Proofs.Contract.Orderly
/-!
# Answers keep the contract

What the generators make is orderly and what the gate lets through is steady, so every answer keeps
the contract of answers and each of its actions that of actions.
-/

namespace Storyboard.Compiler

open Contract (Orderly every_orderly)
open Gate (Steady)

/-- Origins do not matter for keeping the contract. -/
theorem cargo_of_measured {d : Draft Float} (h : AllMeasured d.actions) :
    Composition.Cargo Orderly (fun _ => True) d.fragment :=
  ⟨every_orderly h, fun _ _ => trivial⟩

theorem carrying_orderly {p : Plan Float} (h : p.features.Tempered) :
    Carrying Orderly (fun _ => True) p where
  portable := Contract.portable_orderly
  passing _ _ := Contract.orderly_of_pass
  overlaid :=
    { corner := trivial
      wrapper := fun id => Contract.orderly_toValue (Action.measured_group (by simp))
      camera := fun id origin _ => every_orderly (Camera.measured_motion p id origin)
      weather := fun n parent origin _ =>
        every_orderly (Weather.measured_overlay p n parent origin) }
  drafts := by
    intro ds hds
    rcases drafts_cases hds with ⟨d, hd, rfl⟩ | rfl
    · exact List.forall_mem_singleton.2 (cargo_of_measured (Edit.measured_of_build h hd))
    · intro d hd
      rcases mem_wanted hd with hd | rfl | rfl
      · obtain ⟨make, hmake, rfl⟩ := Option.map_eq_some_iff.1 hd
        exact cargo_of_measured (Scene.measured_of_builder? hmake p 0)
      · exact cargo_of_measured (Rig.measured_animated p 0)
      · exact cargo_of_measured (Shape.measured_build p 0)
  photo := every_orderly (Photo.measured_build p 0)
  safe := by
    have hbuilder : Scene.builder? .genericScene = some (Scene.generic (α := Float)) := rfl
    exact every_orderly (Scene.measured_of_builder? hbuilder p 0)

/-- The features of a plan are those of the prompt. -/
theorem tempered_of_ofRequest {settings : Settings Float} {r : Request Float} {p : Plan Float}
    (h : Plan.ofRequest settings r = .ok p) : p.features.Tempered := by
  obtain ⟨f, hf, rfl⟩ := map_eq_ok_iff.1 h
  exact Features.tempered_of_ofText hf

/-- The answer keeps its contract, and each action keeps its own. -/
structure Kept (o : Outcome Float) : Prop where
  answer : Contract.answer.schema.accepts o.toValue = true
  actions : ∀ a ∈ o.actions, Contract.action.schema.accepts a = true

theorem kept_of_answered {o : Outcome Float} (h : Answered Orderly o) : Kept o where
  answer := Contract.accepts_answer fun a ha => (h.actions a ha).1
  actions a ha := Contract.accepts_of_orderly (h.actions a ha).1 (h.actions a ha).2

theorem keeps_of_kept {o : Outcome Float} (h : Kept o) : Contract.keeps o.toValue = true := by
  have hitems : (((o.toValue.field? "actions").bind Value.items?).getD []) = o.actions := rfl
  rw [Contract.keeps, Bool.and_eq_true, hitems, List.all_eq_true]
  exact ⟨h.answer, h.actions⟩

theorem kept_failure : Kept (.failure : Outcome Float) :=
  kept_of_answered ⟨List.forall_mem_nil _, List.forall_mem_nil _⟩

theorem kept_answer (settings : Settings Float) (r : Request Float) : Kept (answer settings r) := by
  unfold answer
  split
  · rename_i o ho
    obtain ⟨p, hp, hcompile⟩ := bind_eq_ok_iff.1 ho
    exact kept_of_answered ((carrying_orderly (tempered_of_ofRequest hp)).answered hcompile)
  · exact kept_failure

/-- Every answer to a request, given as a record or as any value, keeps the contract of answers,
and each of its actions the contract of actions. -/
theorem generate_keeps (settings : Settings Float) :
    (∀ r : Request Float, Kept (answer settings r) ∧
      Contract.keeps (answer settings r).toValue = true) ∧
    ∀ request : Value Float, Kept (generate settings request) ∧
      Contract.keeps (generate settings request).toValue = true := by
  have hanswer : ∀ r : Request Float, Kept (answer settings r) ∧
      Contract.keeps (answer settings r).toValue = true :=
    fun r => ⟨kept_answer settings r, keeps_of_kept (kept_answer settings r)⟩
  refine ⟨hanswer, fun request => ?_⟩
  unfold generate
  split
  · exact hanswer _
  · exact ⟨kept_failure, keeps_of_kept kept_failure⟩

end Storyboard.Compiler
