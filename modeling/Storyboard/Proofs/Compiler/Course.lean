import Storyboard.Compiler
import Storyboard.Proofs.Except
/-!
# The course of an answer

What the steps from a plan to its answer come to when they succeed: which drafts there are, what of
them passes the gate, and whether the simple scene stands in for what is left.
-/

namespace Storyboard.Compiler

variable {α : Type} [Scalar α] {p : Plan α}

/-! ## Drafts -/

theorem mem_wanted_iff {d : Draft α} :
    d ∈ wanted p ↔ (p.wantsScene = true ∧ Scene.build? p 0 = some d) ∨
      (p.wantsCharacter = true ∧ d = Rig.animated p 0) ∨
      (p.wantsPath = true ∧ d = Shape.build p 0) := by
  simp only [wanted, List.mem_append, List.mem_ite_nil_right, Option.mem_toList,
    List.mem_singleton, or_assoc]

theorem mem_wanted {d : Draft α} (h : d ∈ wanted p) :
    Scene.build? p 0 = some d ∨ d = Rig.animated p 0 ∨ d = Shape.build p 0 :=
  (mem_wanted_iff.1 h).imp And.right (Or.imp And.right And.right)

theorem drafts_cases {ds : List (Draft α)} (h : drafts p = .ok ds) :
    (∃ d, Edit.build p 0 = .ok d ∧ ds = [d]) ∨ ds = wanted p := by
  unfold drafts at h
  split at h
  · obtain ⟨d, hd, rfl⟩ := map_eq_ok_iff.1 h
    exact .inl ⟨d, hd, rfl⟩
  · simp only [Except.ok.injEq] at h
    exact .inr h.symm

theorem drafts_eq_wanted (hne : wanted p ≠ []) : drafts p = .ok (wanted p) := by
  unfold drafts
  split
  · rename_i hnil
    exact absurd hnil hne
  · rfl

theorem eq_wanted_of_drafts {ds : List (Draft α)} (hne : wanted p ≠ [])
    (h : drafts p = .ok ds) : ds = wanted p :=
  (Except.ok.inj ((drafts_eq_wanted hne).symm.trans h)).symm

/-! ## Fragments that pass the gate -/

theorem gated_eq_ok {f g : Fragment α} {whole : Bool} (h : gated f = .ok (g, whole)) :
    ∃ r, Gate.passAll f.actions = .ok r ∧ g = { f with actions := r.actions } := by
  obtain ⟨r, hr, heq⟩ := map_eq_ok_iff.1 h
  simp only [Prod.mk.injEq] at heq
  exact ⟨r, hr, heq.1.symm⟩

theorem gatedAll_nil_eq_ok_iff {fs : List (Fragment α)} {whole : Bool} :
    gatedAll ([] : List (Draft α)) = .ok (fs, whole) ↔ [] = fs ∧ true = whole := by
  simp only [gatedAll, Except.ok.injEq, Prod.mk.injEq]

theorem gatedAll_cons_eq_ok_iff {d : Draft α} {ds : List (Draft α)} {fs : List (Fragment α)}
    {whole : Bool} :
    gatedAll (d :: ds) = .ok (fs, whole) ↔
      ∃ f own rest wholeRest, gated d.fragment = .ok (f, own) ∧
        gatedAll ds = .ok (rest, wholeRest) ∧ f :: rest = fs ∧ (own && wholeRest) = whole := by
  simp only [gatedAll, bind_eq_ok_iff, pure_eq_ok, Except.ok.injEq, Prod.mk.injEq]
  constructor
  · rintro ⟨⟨f, own⟩, hf, ⟨rest, wholeRest⟩, hrest, rfl, rfl⟩
    exact ⟨f, own, rest, wholeRest, hf, hrest, rfl, rfl⟩
  · rintro ⟨f, own, rest, wholeRest, hf, hrest, rfl, rfl⟩
    exact ⟨(f, own), hf, (rest, wholeRest), hrest, rfl, rfl⟩

theorem gatedAll_singleton_eq_ok_iff {d : Draft α} {fs : List (Fragment α)} {whole : Bool} :
    gatedAll [d] = .ok (fs, whole) ↔ ∃ f, gated d.fragment = .ok (f, whole) ∧ [f] = fs := by
  rw [gatedAll_cons_eq_ok_iff]
  constructor
  · rintro ⟨f, own, rest, wholeRest, hf, hrest, rfl, rfl⟩
    obtain ⟨rfl, rfl⟩ := gatedAll_nil_eq_ok_iff.1 hrest
    exact ⟨f, by rwa [Bool.and_true], rfl⟩
  · rintro ⟨f, hf, rfl⟩
    exact ⟨f, whole, [], true, hf, gatedAll_nil_eq_ok_iff.2 ⟨rfl, rfl⟩, rfl, Bool.and_true whole⟩

/-- Each draft passes the gate by itself, and nothing else does. -/
theorem gated_of_gatedAll {ds : List (Draft α)} {fs : List (Fragment α)} {whole : Bool}
    (h : gatedAll ds = .ok (fs, whole)) :
    (∀ d ∈ ds, ∃ f ∈ fs, ∃ own, gated d.fragment = .ok (f, own)) ∧
      ∀ f ∈ fs, ∃ d ∈ ds, ∃ own, gated d.fragment = .ok (f, own) := by
  induction ds generalizing fs whole with
  | nil =>
      obtain ⟨rfl, -⟩ := gatedAll_nil_eq_ok_iff.1 h
      exact ⟨List.forall_mem_nil _, List.forall_mem_nil _⟩
  | cons d ds ih =>
      obtain ⟨f, own, rest, _, hf, hrest, rfl, -⟩ := gatedAll_cons_eq_ok_iff.1 h
      obtain ⟨hdown, hup⟩ := ih hrest
      constructor
      · refine List.forall_mem_cons.2 ⟨⟨f, List.mem_cons_self, own, hf⟩, fun e he => ?_⟩
        obtain ⟨g, hg, hgated⟩ := hdown e he
        exact ⟨g, List.mem_cons_of_mem f hg, hgated⟩
      · refine List.forall_mem_cons.2 ⟨⟨d, List.mem_cons_self, own, hf⟩, fun g hg => ?_⟩
        obtain ⟨e, he, hgated⟩ := hup g hg
        exact ⟨e, List.mem_cons_of_mem d he, hgated⟩

/-- The gate leaves everything but the actions alone. -/
theorem map_of_gatedAll {β : Type} {g : Fragment α → β}
    (hg : ∀ (f : Fragment α) (as : List (Value α)), g { f with actions := as } = g f)
    {ds : List (Draft α)} {fs : List (Fragment α)} {whole : Bool}
    (h : gatedAll ds = .ok (fs, whole)) : fs.map g = ds.map fun d => g d.fragment := by
  induction ds generalizing fs whole with
  | nil =>
      obtain ⟨rfl, -⟩ := gatedAll_nil_eq_ok_iff.1 h
      rfl
  | cons d ds ih =>
      obtain ⟨f, own, rest, _, hf, hrest, rfl, -⟩ := gatedAll_cons_eq_ok_iff.1 h
      obtain ⟨r, -, rfl⟩ := gated_eq_ok hf
      rw [List.map_cons, List.map_cons, ih hrest, hg]

/-! ## Answers -/

/-- The simple scene stands in for an answer without actions when something got lost. -/
theorem rescued_eq_ok_iff (kept : Outcome α) {o : Outcome α} {whole : Bool} :
    (if kept.actions.isEmpty && !whole then safeScene p kept.steps else pure kept) = .ok o ↔
      (kept.actions = [] ∧ whole = false) ∧ safeScene p kept.steps = .ok o ∨
        ¬ (kept.actions = [] ∧ whole = false) ∧ kept = o := by
  split <;> simp_all

/-- A photo is answered with what passes of its draft, if that is not rescued. -/
theorem compilePhoto_eq_ok_iff {o : Outcome α} :
    compilePhoto p = .ok o ↔
      ∃ f whole, gated (Photo.build p 0).fragment = .ok (f, whole) ∧
        ((f.actions = [] ∧ whole = false) ∧ safeScene p [⟨f.title, f.actions⟩] = .ok o ∨
          ¬ (f.actions = [] ∧ whole = false) ∧
            ⟨f.summary, f.actions, [⟨f.title, f.actions⟩]⟩ = o) := by
  simp only [compilePhoto, bind_eq_ok_iff, Prod.exists]
  exact exists_congr fun f => exists_congr fun whole => and_congr_right fun _ =>
    rescued_eq_ok_iff ⟨f.summary, f.actions, [⟨f.title, f.actions⟩]⟩

/-- Any other plan is answered with what passes of the composition of what passes of its drafts, if
that is not rescued. -/
theorem compileScene_eq_ok_iff {o : Outcome α} :
    compileScene p = .ok o ↔
      ∃ ds fs whole c passed, drafts p = .ok ds ∧ gatedAll ds = .ok (fs, whole) ∧
        Composition.compose p fs 0 = .ok c ∧ Gate.passAll c.actions = .ok passed ∧
        ((passed.actions = [] ∧ (whole && passed.ok) = false) ∧ safeScene p c.steps = .ok o ∨
          ¬ (passed.actions = [] ∧ (whole && passed.ok) = false) ∧
            ⟨c.summary, passed.actions, c.steps⟩ = o) := by
  simp only [compileScene, bind_eq_ok_iff, mapError_eq_ok_iff, Prod.exists]
  constructor
  · rintro ⟨ds, hds, fs, whole, hfs, c, hc, passed, hpassed, ho⟩
    exact ⟨ds, fs, whole, c, passed, hds, hfs, hc, hpassed,
      (rescued_eq_ok_iff ⟨c.summary, passed.actions, c.steps⟩).1 ho⟩
  · rintro ⟨ds, fs, whole, c, passed, hds, hfs, hc, hpassed, ho⟩
    exact ⟨ds, hds, fs, whole, hfs, c, hc, passed, hpassed,
      (rescued_eq_ok_iff ⟨c.summary, passed.actions, c.steps⟩).2 ho⟩

end Storyboard.Compiler
