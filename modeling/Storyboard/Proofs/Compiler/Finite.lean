import Storyboard.Proofs.Compiler.Carriage
import Storyboard.Proofs.Draft.FiniteCanvas
/-!
# Answers in finite numbers

The drafts of a modest plan are in finite numbers and leave room where camera and weather start
from, and joining, the gate and the scene that stands in keep that.
-/

namespace Storyboard

/-! ## Where fragments stand -/

/-- Only figures have parts. -/
theorem Edit.parts_of_build {p : Plan Float} {n : Nat} {d : Draft Float} (h : build p n = .ok d) :
    d.parts = [] := by
  rcases build_cases h with hall | rfl | ⟨e, -, rfl⟩
  · simp only [forAll?, Option.ite_none_right_eq_some, Option.some.injEq] at hall
    rw [← hall.2]
    rfl
  · rfl
  · rfl

theorem Scene.parts_of_builder? {archetype : Archetype} {make : Plan Float → Nat → Draft Float}
    (h : builder? archetype = some make) (p : Plan Float) (n : Nat) : (make p n).parts = [] := by
  cases archetype <;> simp only [builder?, Option.some.injEq, reduceCtorEq] at h <;> subst h <;> rfl

namespace Compiler

open Composition (Every Cargo originOf)

theorem every_isFinite {as : List (Action Float)} (h : AllFinite as) :
    Every (fun a => a.isFinite = true) (as.map Action.toValue) :=
  List.forall_mem_map.2 h

/-- Without parts, a fragment stands at zero. -/
theorem originOf_of_no_parts {f : Fragment Float} (h : f.parts = []) :
    originOf f = .ok (Scalar.ofInt 0, Scalar.ofInt 0) := by
  have hzero : Scalar.isFinite (Scalar.ofInt 0 : Float) = true := by decide
  simp only [originOf, h, Fields.get?_nil, Option.getD_none, Value.toScalar, Value.scalarOfInt,
    hzero, if_true, ok_bind, pure_eq_ok]

theorem spotted_of_no_parts {f : Fragment Float} {origin : Float × Float} (h : f.parts = [])
    (horigin : originOf f = .ok origin) : Spotted 1 origin := by
  rw [originOf_of_no_parts h, Except.ok.injEq] at horigin
  have hstart : Tame 1 (Scalar.ofInt 0) := (slight_ofNat (by decide)).tame.mono (by omega)
  rw [← horigin]
  exact ⟨hstart, hstart⟩

theorem cargo_of_finite {d : Draft Float} (h : AllFinite d.actions) (hparts : d.parts = []) :
    Cargo (fun a => a.isFinite = true) (Spotted 1) d.fragment :=
  ⟨every_isFinite h, fun _ => spotted_of_no_parts hparts⟩

theorem spotted_of_rig {p : Plan Float} (h : p.Modest) {n : Nat} {origin : Float × Float}
    (horigin : originOf (Rig.animated p n).fragment = .ok origin) : Spotted 1 origin := by
  obtain rfl : ((p.width * 0.5, p.height * 0.65) : Float × Float) = origin :=
    Except.ok.inj horigin
  exact ⟨h.width.share (by decide), h.height.share (by decide)⟩

theorem carrying_isFinite {p : Plan Float} (h : p.Modest) :
    Carrying (fun a => a.isFinite = true) (Spotted 1) p where
  portable := Composition.portable_isFinite
  passing _ _ := Gate.isFinite_of_pass
  overlaid :=
    { corner := ⟨Tame.zero, Tame.zero⟩
      wrapper := fun id => Action.isFinite_group (by decide) (by decide) (by simp)
      camera := fun id origin horigin => every_isFinite (Camera.finite_motion h horigin)
      weather := fun n parent origin horigin =>
        every_isFinite (Weather.finite_overlay h n parent horigin) }
  drafts := by
    intro ds hds
    rcases drafts_cases hds with ⟨d, hd, rfl⟩ | rfl
    · exact List.forall_mem_singleton.2
        (cargo_of_finite (Edit.finite_of_build h hd) (Edit.parts_of_build hd))
    · intro d hd
      rcases mem_wanted hd with hd | rfl | rfl
      · obtain ⟨make, hmake, rfl⟩ := Option.map_eq_some_iff.1 hd
        exact cargo_of_finite (Scene.finite_of_builder? h hmake 0)
          (Scene.parts_of_builder? hmake p 0)
      · exact ⟨every_isFinite (Rig.finite_animated h 0), fun _ => spotted_of_rig h⟩
      · exact cargo_of_finite (Shape.finite_build h 0) rfl
  photo := every_isFinite (Photo.finite_build h 0)
  safe := every_isFinite (Scene.finite_generic h 0)

theorem isFinite_toValue {o : Outcome Float}
    (h : Answered (fun a : Value Float => a.isFinite = true) o) : o.toValue.isFinite = true := by
  have hactions : ∀ a ∈ o.actions, a.isFinite = true := fun a ha => (h.actions a ha).2
  have hsteps : ∀ step ∈ o.steps, step.toValue.isFinite = true := fun step hstep => by
    have hstep : ∀ a ∈ step.actions, a.isFinite = true := h.steps step hstep
    simpa [PlanStep.toValue] using hstep
  unfold Outcome.toValue
  split
  · simpa using hactions
  · simpa using ⟨hactions, hsteps⟩

/-- The answer to a plain request is in finite numbers. -/
theorem isFinite_answer (env : Surroundings) {r : Request Float} (hr : r.Plain) :
    (answer (Settings.read env) r).toValue.isFinite = true := by
  unfold answer
  split
  · rename_i o ho
    obtain ⟨p, hp, hcompile⟩ := bind_eq_ok_iff.1 ho
    exact isFinite_toValue ((carrying_isFinite (Plan.modest_of_ofRequest hr hp)).answered hcompile)
  · exact isFinite_toValue ⟨List.forall_mem_nil _, List.forall_mem_nil _⟩

end Compiler

end Storyboard
