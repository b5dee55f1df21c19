import Storyboard.Proofs.Compiler.Failing
import Storyboard.Proofs.Service
/-!
# What the counters say

Over any calls, the counter of a label has gone up by the number of requests that came to their
answer in the way the label stands for, although the label is only read off the answer: no answer
that was made imitates the fixed ones.  The counter of drops has gone up by all that was rejected.
-/

namespace Storyboard

/-! ## How answers come about -/

namespace Compiler

/-- A plan is given up after some steps: the gate drops some of what was made for it, and nothing
is left. -/
inductive GivenUp (p : Plan Float) : List (PlanStep Float) → Prop
  | photo {f : Fragment Float} (photo : p.wantsPhoto = true)
      (dropped : gated (Photo.build p 0).fragment = .ok (f, false)) (empty : f.actions = []) :
    GivenUp p [⟨f.title, f.actions⟩]
  | scene {ds : List (Draft Float)} {fs : List (Fragment Float)} {whole : Bool}
      {c : Composition Float} {passed : Passage Float} (photo : p.wantsPhoto = false)
      (drafted : drafts p = .ok ds) (gated : gatedAll ds = .ok (fs, whole))
      (composed : Composition.compose p fs 0 = .ok c) (passes : Gate.passAll c.actions = .ok passed)
      (dropped : whole = false ∨ passed.ok = false) (empty : passed.actions = []) :
    GivenUp p c.steps

theorem compile_of_givenUp {p : Plan Float} {steps : List (PlanStep Float)} (h : GivenUp p steps) :
    compile p = safeScene p steps := by
  cases h with
  | photo hphoto hdropped hempty =>
      simp only [compile, hphoto, if_true, compilePhoto, hdropped, ok_bind, hempty,
        List.isEmpty_nil, Bool.not_false, Bool.and_self]
  | @scene ds fs whole c passed hphoto hds hfs hc hpassed hdropped hempty =>
      have hlossy : (whole && passed.ok) = false := by
        rcases hdropped with h | h <;> simp [h]
      simp only [compile, hphoto, Bool.false_eq_true, if_false, compileScene, hds, ok_bind, hfs, hc,
        mapError_ok, hpassed, hempty, List.isEmpty_nil, hlossy, Bool.not_false, Bool.and_self,
        if_true]

/-- Only a plan that is given up comes to the summary of the scene that stands in. -/
theorem exists_givenUp {p : Plan Float} {o : Outcome Float} (h : compile p = .ok o)
    (hsafe : o.summary = Outcome.safeSummary) : ∃ steps, GivenUp p steps := by
  unfold compile at h
  split at h
  · rename_i hphoto
    obtain ⟨f, whole, hf, ⟨⟨hempty, rfl⟩, -⟩ | ⟨-, rfl⟩⟩ := compilePhoto_eq_ok_iff.1 h
    · exact ⟨_, .photo hphoto hf hempty⟩
    · obtain ⟨r, -, rfl⟩ := gated_eq_ok hf
      exact absurd hsafe (ne_of_telling (Photo.told_build p 0)).1
  · rename_i hphoto
    obtain ⟨ds, fs, whole, c, passed, hds, hfs, hc, hpassed, ⟨⟨hempty, hlost⟩, -⟩ | ⟨-, rfl⟩⟩ :=
      compileScene_eq_ok_iff.1 h
    · exact ⟨_, .scene (by simpa using hphoto) hds hfs hc hpassed
        (Bool.and_eq_false_iff.1 hlost) hempty⟩
    · exact absurd hsafe (ne_of_telling (telling_of_compose (told_of_gatedAll hds hfs) hc)).1

/-- The answer to a request is the scene that stands in for a plan that is given up. -/
def Rescued (settings : Settings Float) (r : Request Float) : Prop :=
  ∃ p steps, Plan.ofRequest settings r = .ok p ∧ GivenUp p steps ∧
    safeScene p steps = .ok (answer settings r) ∧ (answer settings r).actions ≠ []

variable {settings : Settings Float} {r : Request Float} {o : Outcome Float}

theorem answer_of_attempt (h : attempt settings r = .ok o) : answer settings r = o := by
  unfold answer
  rw [h]

theorem answer_of_fault {fault : Fault} (h : attempt settings r = .error fault) :
    answer settings r = .failure := by
  unfold answer
  rw [h]

theorem rescued_iff (h : attempt settings r = .ok o) :
    Rescued settings r ↔ o.summary = Outcome.safeSummary := by
  unfold Rescued
  rw [answer_of_attempt h]
  constructor
  · rintro ⟨p, steps, -, -, ho, -⟩
    exact summary_of_safeScene ho
  · intro hsafe
    obtain ⟨p, hp, hcompile⟩ := bind_eq_ok_iff.1 h
    obtain ⟨steps, hsteps⟩ := exists_givenUp hcompile hsafe
    rw [compile_of_givenUp hsteps] at hcompile
    exact ⟨p, steps, hp, hsteps, hcompile, (eq_of_safeScene hcompile).2⟩

end Compiler

/-! ## Labels -/

namespace Service

open Compiler (answer attempt Rescued)

/-- What a label says about the way in which a request came to its answer. -/
def Label.Fits (settings : Settings Float) (r : Request Float) : Label → Prop
  | .failure => ∃ fault, attempt settings r = .error fault
  | .safeScene => Rescued settings r
  | .empty => ∃ o, attempt settings r = .ok o ∧ ¬ Rescued settings r ∧ o.actions = []
  | .ok => ∃ o, attempt settings r = .ok o ∧ ¬ Rescued settings r ∧ o.actions ≠ []

variable {settings : Settings Float} {c : Call Float} {r : Request Float} {label : Label}

/-- The label that is read off an answer is the only one that fits. -/
theorem fits_iff_of_attempt {o : Outcome Float} (h : attempt settings r = .ok o) :
    label.Fits settings r ↔ label = labelOf o := by
  have hrescued := Compiler.rescued_iff h
  by_cases hsafe : o.summary = Outcome.safeSummary <;> by_cases hempty : o.actions = [] <;>
    cases label <;> simp [Label.Fits, labelOf, h, hrescued, hsafe, hempty]

theorem fits_iff_of_fault {fault : Fault} (h : attempt settings r = .error fault) :
    label.Fits settings r ↔ label = .failure := by
  have hanswer := Compiler.answer_of_fault h
  have hrescued : ¬ Rescued settings r := by
    rintro ⟨p, steps, -, -, -, hne⟩
    rw [hanswer] at hne
    exact hne rfl
  cases label <;> simp [Label.Fits, h, hrescued]

/-- A request with a prompt within the limit moves the counter of the label that fits. -/
theorem outcome_generate (hshort : r.prompt.length ≤ settings.maxPromptChars) :
    (generate settings r).outcome = some label ↔ label.Fits settings r := by
  have hkeeps := Compiler.keeps_of_kept (Compiler.kept_answer settings r)
  unfold generate
  rw [if_neg (not_lt.2 hshort)]
  cases hattempt : attempt settings r with
  | error fault =>
      rw [fits_iff_of_fault hattempt, Compiler.answer_of_fault hattempt]
      simp [Outcome.failure, failed, eq_comm]
  | ok o =>
      obtain ⟨p, -, hcompile⟩ := bind_eq_ok_iff.1 hattempt
      have hdone := Compiler.summary_of_compile hcompile
      rw [fits_iff_of_attempt hattempt]
      rw [Compiler.answer_of_attempt hattempt] at hkeeps ⊢
      simp [hdone, hkeeps, eq_comm]

theorem outcome_of_tooLong (h : settings.maxPromptChars < r.prompt.length) :
    (generate settings r).outcome = none := by
  rw [generate, if_pos h]
  rfl

/-! ## Calls -/

/-- A call of the route that checks, with a body that is read as a list of actions. -/
structure Checks (c : Call Float) (actions : List (Value Float)) : Prop where
  route : c.route = "validate"
  body : ∃ fields, received c.body = .ok (.object fields) ∧ readActions fields = .valid actions

/-- A reply that moves no counter. -/
structure Still (reply : Reply Float) : Prop where
  outcome : reply.outcome = none
  drops : reply.drops = 0

theorem still_of_received {body : Body Float} {reply : Reply Float}
    (h : received body = .error reply) : Still reply := by
  unfold received at h
  cases body with
  | value v =>
      dsimp only at h
      split at h <;> cases h
      exact ⟨rfl, rfl⟩
  | text s =>
      dsimp only at h
      -- Nothing, no value, an integer that is too long, or null.
      split at h
      · cases h
        exact ⟨rfl, rfl⟩
      · split at h
        · cases h
          exact ⟨rfl, rfl⟩
        · split at h
          · cases h
            exact ⟨rfl, rfl⟩
          · split at h <;> cases h
            exact ⟨rfl, rfl⟩

theorem drops_ofValue (v : Value Float) : (Reply.ofValue v).drops = 0 := by
  unfold Reply.ofValue
  split <;> rfl

theorem drops_failed : (failed : Reply Float).drops = 0 := rfl

theorem drops_generate (settings : Settings Float) (r : Request Float) :
    (generate settings r).drops = 0 := by
  unfold generate
  generalize answer settings r = o
  dsimp only
  split
  · rfl
  · split
    · exact drops_failed
    · split
      · exact drops_ofValue o.toValue
      · exact drops_failed

theorem outcome_validate (actions : List (Value Float)) : (validate actions).outcome = none := by
  unfold validate
  split
  · rfl
  · unfold Reply.ofValue
    split <;> rfl

theorem call_of_checks {actions : List (Value Float)} (settings : Settings Float)
    (h : Checks c actions) : call settings c = validate actions := by
  obtain ⟨fields, hbody, hread⟩ := h.body
  have hother : c.route ≠ "generate" := by
    rw [h.route]
    decide
  rw [call, if_neg hother, if_pos h.route, hbody]
  simp only [replying, hread]

/-- A body that is not read as what a route wants moves no counter. -/
theorem still_of_replying {β : Type} {v : Value Float} {read : Fields Float → Checked β}
    {reply : β → Reply Float}
    (h : ¬ ∃ fields b, v = .object fields ∧ read fields = .valid b) :
    Still (replying v read reply) := by
  unfold replying
  split
  · rename_i fields
    split
    · rename_i b hread
      exact absurd ⟨fields, b, rfl, hread⟩ h
    · exact ⟨rfl, rfl⟩
  · exact ⟨rfl, rfl⟩

/-- A call asks for an answer, or has actions checked, or moves no counter. -/
theorem call_cases (settings : Settings Float) (c : Call Float) :
    (∃ r, Asks c r) ∨ (∃ actions, Checks c actions) ∨ Still (call settings c) := by
  by_cases hgenerate : c.route = "generate"
  · by_cases hasks : ∃ r, Asks c r
    · exact .inl hasks
    · refine .inr (.inr ?_)
      rw [call, if_pos hgenerate]
      split
      · exact still_of_received ‹_›
      · rename_i v hv
        refine still_of_replying ?_
        rintro ⟨fields, r, rfl, hread⟩
        exact hasks ⟨r, hgenerate, fields, hv, hread⟩
  · by_cases hvalidate : c.route = "validate"
    · by_cases hchecks : ∃ actions, Checks c actions
      · exact .inr (.inl hchecks)
      · refine .inr (.inr ?_)
        rw [call, if_neg hgenerate, if_pos hvalidate]
        split
        · exact still_of_received ‹_›
        · rename_i v hv
          refine still_of_replying ?_
          rintro ⟨fields, actions, rfl, hread⟩
          exact hchecks ⟨actions, hvalidate, fields, hv, hread⟩
    · refine .inr (.inr ?_)
      rw [call, if_neg hgenerate, if_neg hvalidate]
      exact ⟨rfl, rfl⟩

/-- A call counts under a label: it is read as a request with a prompt within the limit, and the
label fits. -/
def Counts (settings : Settings Float) (label : Label) (c : Call Float) : Prop :=
  ∃ r, Asks c r ∧ r.prompt.length ≤ settings.maxPromptChars ∧ label.Fits settings r

theorem Asks.unique {r r' : Request Float} (h : Asks c r) (h' : Asks c r') : r = r' := by
  obtain ⟨fields, hbody, hread⟩ := h.body
  obtain ⟨fields', hbody', hread'⟩ := h'.body
  obtain rfl := Value.object.inj (Except.ok.inj (hbody.symm.trans hbody'))
  exact Checked.valid.inj (hread.symm.trans hread')

/-- What one call does to the counters of the labels. -/
theorem outcome_call : (call settings c).outcome = some label ↔ Counts settings label c := by
  by_cases hasks : ∃ r, Asks c r
  · obtain ⟨r, hr⟩ := hasks
    rw [call_of_asks hr]
    by_cases hshort : r.prompt.length ≤ settings.maxPromptChars
    · rw [outcome_generate hshort]
      constructor
      · exact fun hfits => ⟨r, hr, hshort, hfits⟩
      · rintro ⟨r', hr', -, hfits⟩
        rwa [hr.unique hr']
    · rw [outcome_of_tooLong (not_le.1 hshort)]
      refine iff_of_false (by simp) ?_
      rintro ⟨r', hr', hshort', -⟩
      exact hshort (hr.unique hr' ▸ hshort')
  · have hcounts : ¬ Counts settings label c := fun ⟨r, hr, _⟩ => hasks ⟨r, hr⟩
    refine iff_of_false ?_ hcounts
    rcases call_cases settings c with h | ⟨actions, h⟩ | h
    · exact absurd h hasks
    · rw [call_of_checks settings h, outcome_validate]
      simp
    · rw [h.outcome]
      simp

/-- Exactly one label fits an answer. -/
theorem existsUnique_fits (settings : Settings Float) (r : Request Float) :
    ∃! label : Label, label.Fits settings r := by
  cases hattempt : attempt settings r with
  | error fault =>
      exact ⟨_, (fits_iff_of_fault hattempt).2 rfl, fun _ => (fits_iff_of_fault hattempt).1⟩
  | ok o =>
      exact ⟨_, (fits_iff_of_attempt hattempt).2 rfl, fun _ => (fits_iff_of_attempt hattempt).1⟩

/-- What the gate says about the actions that a call has checked; nothing if there are none, or if
the gate gives no answer. -/
def passage? (c : Call Float) : Option (Passage Float) :=
  if c.route = "validate" then
    match received c.body with
    | .ok (.object fields) =>
      match readActions fields with
      | .valid actions => (Gate.passAll actions).toOption
      | .invalid _ => none
    | _ => none
  else none

/-- The number of actions of a call that the gate rejects. -/
def rejected (c : Call Float) : Nat := ((passage? c).map (·.rejections.length)).getD 0

theorem passage?_of_checks {actions : List (Value Float)} (h : Checks c actions) :
    passage? c = (Gate.passAll actions).toOption := by
  obtain ⟨fields, hbody, hread⟩ := h.body
  simp only [passage?, h.route, if_true, hbody, hread]

theorem exists_checks_of_passage? {passed : Passage Float} (h : passage? c = some passed) :
    ∃ actions, Checks c actions := by
  unfold passage? at h
  split at h
  · rename_i hroute
    split at h
    · rename_i fields hbody
      split at h
      · rename_i actions hread
        exact ⟨actions, hroute, fields, hbody, hread⟩
      · cases h
    · cases h
  · cases h

/-- What one call does to the counter of drops. -/
theorem drops_call (settings : Settings Float) (c : Call Float) :
    (call settings c).drops = rejected c := by
  by_cases hchecks : ∃ actions, Checks c actions
  · obtain ⟨actions, h⟩ := hchecks
    rw [call_of_checks settings h, rejected, passage?_of_checks h, validate]
    cases Gate.passAll actions <;> rfl
  · have hnone : passage? c = none := by
      cases h : passage? c with
      | none => rfl
      | some passed => exact absurd (exists_checks_of_passage? h) hchecks
    rw [rejected, hnone]
    rcases call_cases settings c with ⟨r, hr⟩ | h | h
    · rw [call_of_asks hr, drops_generate]
      rfl
    · exact absurd h hchecks
    · exact h.drops

/-! ## Runs -/

/-- What the counters read. -/
structure Readings where
  outcomes : Label → Nat
  drops : Nat

/-- The readings after a reply. -/
def Readings.after (m : Readings) (reply : Reply Float) : Readings where
  outcomes label := m.outcomes label + if reply.outcome = some label then 1 else 0
  drops := m.drops + reply.drops

/-- The readings after some calls, one after the other. -/
def serve (settings : Settings Float) (m : Readings) (calls : List (Call Float)) : Readings :=
  calls.foldl (fun m c => m.after (call settings c)) m

theorem serve_cons (settings : Settings Float) (m : Readings) (c : Call Float)
    (calls : List (Call Float)) :
    serve settings m (c :: calls) = serve settings (m.after (call settings c)) calls := rfl

theorem drops_serve (settings : Settings Float) (m : Readings) (calls : List (Call Float)) :
    (serve settings m calls).drops = m.drops + (calls.map rejected).sum := by
  induction calls generalizing m with
  | nil => rfl
  | cons c calls ih =>
      rw [serve_cons, ih, Readings.after, drops_call, List.map_cons, List.sum_cons, Nat.add_assoc]

open Classical in
theorem outcomes_serve (settings : Settings Float) (m : Readings) (calls : List (Call Float))
    (label : Label) :
    (serve settings m calls).outcomes label =
      m.outcomes label + calls.countP fun c => Counts settings label c := by
  induction calls generalizing m with
  | nil => rfl
  | cons c calls ih =>
      rw [serve_cons, ih, List.countP_cons, Readings.after]
      simp only [outcome_call, decide_eq_true_eq]
      omega

open Classical in
/-- Over any calls, the counter of a label goes up by the number of requests, read and with a
prompt within the limit, that came to their answer as the label says; exactly one label fits each
of them.  The counter of drops goes up by all that the gate rejected of what it was given. -/
theorem serve_counts (settings : Settings Float) (m : Readings) (calls : List (Call Float)) :
    (∀ label, (serve settings m calls).outcomes label =
      m.outcomes label + calls.countP fun c => Counts settings label c) ∧
    (∀ r : Request Float, ∃! label : Label, label.Fits settings r) ∧
    (serve settings m calls).drops = m.drops + (calls.map rejected).sum :=
  ⟨outcomes_serve settings m calls, existsUnique_fits settings, drops_serve settings m calls⟩

end Service

end Storyboard
