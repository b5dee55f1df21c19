import Storyboard.Proofs.Compiler.Coherence
/-!
# What an answer carries

A property of actions that the gate and composing keep is carried from the drafts of a plan, from
what is laid over them and from the scene that stands in to every action of the answer and of its
steps.
-/

namespace Storyboard.Compiler

open Composition (Portable Overlaid Cargo Every)
open Gate (Steady)

/-- What has a property before an answer is put together. -/
structure Carrying (Q : Value Float → Prop) (O : Float × Float → Prop) (p : Plan Float) :
    Prop where
  portable : Portable Q
  passing : ∀ a b, Gate.pass a = .ok (some b) → Q a → Q b
  overlaid : Overlaid Q O p
  drafts : ∀ ds, drafts p = .ok ds → ∀ d ∈ ds, Cargo Q O d.fragment
  photo : Every Q (Photo.build p 0).fragment.actions
  safe : Every Q (Scene.generic p 0).fragment.actions

variable {Q : Value Float → Prop} {O : Float × Float → Prop} {p : Plan Float}

/-- Actions that came through the gate are steady and have the property. -/
theorem Carrying.passed (h : Carrying Q O p) {as : List (Value Float)} {r : Passage Float}
    (hr : Gate.passAll as = .ok r) (has : Every Q as) : ∀ b ∈ r.actions, Steady b ∧ Q b := by
  intro b hb
  obtain ⟨a, ha, hpass⟩ := Gate.exists_pass_of_mem hr b hb
  exact ⟨Gate.steady_of_pass hpass, h.passing a b hpass (has a ha)⟩

theorem Carrying.cargo_of_gated (h : Carrying Q O p) {f g : Fragment Float} {whole : Bool}
    (hf : Cargo Q O f) (hg : gated f = .ok (g, whole)) : Cargo Q O g := by
  obtain ⟨r, hr, rfl⟩ := gated_eq_ok hg
  exact ⟨fun b hb => (h.passed hr hf.actions b hb).2, hf.origin⟩

theorem Carrying.cargo_of_gatedAll (h : Carrying Q O p) {ds : List (Draft Float)}
    {fs : List (Fragment Float)} {whole : Bool} (hds : ∀ d ∈ ds, Cargo Q O d.fragment)
    (hfs : gatedAll ds = .ok (fs, whole)) : ∀ f ∈ fs, Cargo Q O f := by
  intro f hf
  obtain ⟨d, hd, _, hgated⟩ := (gated_of_gatedAll hfs).2 f hf
  exact h.cargo_of_gated (hds d hd) hgated

/-- The actions of an answer are steady and have a property, and so have those of its steps. -/
structure Answered (Q : Value Float → Prop) (o : Outcome Float) : Prop where
  actions : ∀ a ∈ o.actions, Steady a ∧ Q a
  steps : ∀ step ∈ o.steps, Every Q step.actions

theorem Carrying.answered_safeScene (h : Carrying Q O p) {steps : List (PlanStep Float)}
    {o : Outcome Float} (hsteps : ∀ step ∈ steps, Every Q step.actions)
    (ho : safeScene p steps = .ok o) : Answered Q o := by
  obtain ⟨r, hr, ho⟩ := map_eq_ok_iff.1 ho
  have hpassed := h.passed hr h.safe
  split at ho
  · rw [← ho]
    exact ⟨List.forall_mem_nil _, hsteps⟩
  · rw [← ho]
    exact ⟨hpassed, List.forall_mem_append.2
      ⟨hsteps, List.forall_mem_singleton.2 fun a ha => (hpassed a ha).2⟩⟩

theorem Carrying.answered_compilePhoto (h : Carrying Q O p) {o : Outcome Float}
    (ho : compilePhoto p = .ok o) : Answered Q o := by
  obtain ⟨f, whole, hf, ho⟩ := compilePhoto_eq_ok_iff.1 ho
  obtain ⟨r, hr, rfl⟩ := gated_eq_ok hf
  have hpassed := h.passed hr h.photo
  have hsteps : ∀ step ∈ [(⟨(Photo.build p 0).fragment.title, r.actions⟩ : PlanStep Float)],
      Every Q step.actions := List.forall_mem_singleton.2 fun a ha => (hpassed a ha).2
  obtain ⟨-, hsafe⟩ | ⟨-, rfl⟩ := ho
  · exact h.answered_safeScene hsteps hsafe
  · exact ⟨hpassed, hsteps⟩

theorem Carrying.answered_compileScene (h : Carrying Q O p) {o : Outcome Float}
    (ho : compileScene p = .ok o) : Answered Q o := by
  obtain ⟨ds, fs, whole, c, r, hds, hfs, hc, hr, ho⟩ := compileScene_eq_ok_iff.1 ho
  obtain ⟨hactions, hsteps⟩ := Composition.every_compose h.portable h.overlaid
    (h.cargo_of_gatedAll (h.drafts ds hds) hfs) hc
  obtain ⟨-, hsafe⟩ | ⟨-, rfl⟩ := ho
  · exact h.answered_safeScene hsteps hsafe
  · exact ⟨h.passed hr hactions, hsteps⟩

/-- Whichever way an answer is made, it carries the property. -/
theorem Carrying.answered (h : Carrying Q O p) {o : Outcome Float} (ho : compile p = .ok o) :
    Answered Q o := by
  unfold compile at ho
  split at ho
  · exact h.answered_compilePhoto ho
  · exact h.answered_compileScene ho

end Storyboard.Compiler
