import Storyboard.Session
import Storyboard.Proofs.Generator
import Storyboard.Proofs.Gate.Sequence
/-!
# One counter for many operations

All operations of a session number their new elements by one counter.  The counter never goes back,
not even when an operation fails, and every id that an operation gives out has a number between the
counter before it and the counter after it.  So no two operations give out the same id, whatever
plans they serve and whatever fragments they compose.
-/

namespace Storyboard

open Placeholder (wholeNumber?)

variable {α : Type}

namespace Composition

/-! ## Numbers within a range -/

/-- Ids that are placeholders with numbers above `low` and up to `high`, in any order. -/
def NumberedWithin (low high : Nat) (ids : List String) : Prop :=
  ∀ s ∈ ids, ∃ k, wholeNumber? s = some k ∧ low < k ∧ k ≤ high

/-- The ids that a fragment adds are placeholders with numbers from one on. -/
def Counted (f : Fragment α) : Prop :=
  ∀ s ∈ addedIds f.actions, ∃ k, wholeNumber? s = some k ∧ 0 < k

theorem numberedWithin_nil (low high : Nat) : NumberedWithin low high [] :=
  List.forall_mem_nil _

theorem numberedWithin_append {low high : Nat} {ids ids' : List String} :
    NumberedWithin low high (ids ++ ids') ↔
      NumberedWithin low high ids ∧ NumberedWithin low high ids' :=
  List.forall_mem_append

theorem NumberedWithin.mono {low high low' high' : Nat} {ids : List String} (hlow : low' ≤ low)
    (hhigh : high ≤ high') (h : NumberedWithin low high ids) : NumberedWithin low' high' ids := by
  intro s hs
  obtain ⟨k, hk, hin⟩ := h s hs
  exact ⟨k, hk, by omega, by omega⟩

theorem RisesWithin.numberedWithin {low high : Nat} {ids : List String}
    (h : RisesWithin low high ids) : NumberedWithin low high ids := by
  obtain ⟨ks, hids, -, hin⟩ := h
  intro s hs
  have hmem : wholeNumber? s ∈ ks.map some := by
    rw [← hids]
    exact List.mem_map_of_mem hs
  obtain ⟨k, hk, hnumber⟩ := List.mem_map.1 hmem
  exact ⟨k, hnumber.symm, hin k hk⟩

/-- Ids in ranges that follow one another are different. -/
theorem NumberedWithin.disjoint {low mid mid' high : Nat} {ids ids' : List String}
    (hmid : mid ≤ mid') (h : NumberedWithin low mid ids) (h' : NumberedWithin mid' high ids') :
    ids.Disjoint ids' := by
  intro s hs hs'
  obtain ⟨k, hk, -, hhigh⟩ := h s hs
  obtain ⟨k', hk', hlow, -⟩ := h' s hs'
  rw [hk, Option.some.injEq] at hk'
  omega

theorem numberedWithin_of_adds {n count : Nat} {as : List (Action α)} (h : Adds n count as) :
    NumberedWithin n (n + count) (addedIds (as.map Action.toValue)) := by
  rw [addedIds_map_toValue, h]
  exact (risesWithin_of_range n count).numberedWithin

theorem numberedWithin_movedText (k : Nat) {low high : Nat} {ids : List String}
    (h : NumberedWithin low high ids) :
    NumberedWithin (low + k) (high + k) (ids.map (movedText k)) := by
  intro s hs
  obtain ⟨t, ht, rfl⟩ := List.mem_map.1 hs
  obtain ⟨j, hj, hin⟩ := h t ht
  refine ⟨j + k, ?_, by omega, by omega⟩
  rw [wholeNumber?_movedText, hj]
  rfl

theorem numberedWithin_peakOf {f : Fragment α} (h : Counted f) :
    NumberedWithin 0 (peakOf f) (addedIds f.actions) := by
  intro s hs
  obtain ⟨k, hk, hpos⟩ := h s hs
  exact ⟨k, hk, hpos, le_peakOf_of_mem_addedIds hs hk⟩

theorem numberedWithin_emittedAll {wrapper : Option String} {anchored : Bool} {n : Nat}
    {fs : List (Fragment α)} (hfs : ∀ f ∈ fs, Counted f) :
    NumberedWithin n (lastNumber n fs) (addedIds (emittedAll wrapper anchored n fs)) := by
  induction fs generalizing n anchored with
  | nil => exact numberedWithin_nil _ _
  | cons f fs ih =>
      have hfirst := numberedWithin_movedText n (numberedWithin_peakOf (hfs f (by simp)))
      rw [Nat.zero_add, Nat.add_comm] at hfirst
      rw [emittedAll, addedIds_append, addedIds_emitted, numberedWithin_append]
      constructor
      · exact hfirst.mono (Nat.le_refl n) (le_lastNumber (n + peakOf f) fs)
      · exact (ih fun g hg => hfs g (by simp [hg])).mono (Nat.le_add_right _ _) (Nat.le_refl _)

variable [Scalar α]

/-- A composition numbers all its elements above its start and up to its last number. -/
theorem Layout.numberedWithin {p : Plan α} {fs : List (Fragment α)} {n : Nat} {c : Composition α}
    (l : Layout p fs n c) (hfs : ∀ f ∈ fs, Counted f) :
    n ≤ c.issued ∧ NumberedWithin n c.issued (addedIds c.actions) := by
  have hfirst := le_firstNumber l.wrapped n
  have hlast := l.firstNumber_le_last
  have hissued := l.last_le_issued
  refine ⟨by omega, ?_⟩
  have hblocks : NumberedWithin (firstNumber l.wrapped n) l.last
      (addedIds (emittedAll (wrapperId? l.wrapped n) false (firstNumber l.wrapped n) fs)) := by
    rw [l.last_eq]
    exact numberedWithin_emittedAll hfs
  rw [l.actions_eq, addedIds_append, addedIds_append, addedIds_append, addedIds_cameraActions,
    List.append_nil, numberedWithin_append, numberedWithin_append]
  refine ⟨⟨?_, ?_⟩, ?_⟩
  · exact l.risesWithin_wrapper.numberedWithin.mono (Nat.le_refl n) (by omega)
  · exact hblocks.mono hfirst hissued
  · exact l.risesWithin_weather.numberedWithin.mono (by omega) (Nat.le_refl _)

/-! ## Faults -/

theorem le_of_supply_eq_error {n last m : Nat} {fault : Fault}
    (h : Placeholder.supply n last = .error (fault, m)) : n ≤ m := by
  unfold Placeholder.supply at h
  split at h
  · simp only [Except.error.injEq, Prod.mk.injEq] at h
    omega
  · cases h

theorem le_of_join_eq_error {wrapper : Option String} {s : Progress α} {f : Fragment α} {m : Nat}
    {fault : Fault} (h : join wrapper s f = .error (fault, m)) : s.issued ≤ m := by
  simp only [join, bind_eq_error_iff, mapError_eq_error_iff, pure_eq_ok, Prod.mk.injEq,
    reduceCtorEq, and_false, exists_false, or_false] at h
  rcases h with ⟨_, -, -, rfl⟩ | ⟨_, -, ⟨_, -, -, rfl⟩ | ⟨highest, -, _, -, -, rfl⟩⟩
  · exact Nat.le_refl _
  · exact Nat.le_refl _
  · exact Nat.le_add_right _ _

theorem le_of_joinAll_eq_error {wrapper : Option String} {s : Progress α}
    {fs : List (Fragment α)} {m : Nat} {fault : Fault}
    (h : joinAll wrapper s fs = .error (fault, m)) : s.issued ≤ m := by
  induction fs generalizing s with
  | nil => cases h
  | cons f fs ih =>
      rcases bind_eq_error_iff.1 h with hjoin | ⟨s₁, hjoin, h⟩
      · exact le_of_join_eq_error hjoin
      · have hissued := (join_eq_ok hjoin).1
        have hrest := ih h
        omega

/-- A composition that fails does not take back what it gave out. -/
theorem le_of_compose_eq_error {p : Plan α} {fs : List (Fragment α)} {n m : Nat} {fault : Fault}
    (h : compose p fs n = .error (fault, m)) : n ≤ m := by
  simp only [compose, start_eq, bind_eq_error_iff, mapError_eq_error_iff, pure_eq_ok,
    Prod.mk.injEq, reduceCtorEq, and_false, exists_false, or_false] at h
  rcases h with ⟨_, -, -, rfl⟩ | ⟨wrapped, -, hsupply | ⟨⟨⟩, -, hjoin | ⟨s, hjoin, hsupply⟩⟩⟩
  · exact Nat.le_refl _
  · exact le_of_supply_eq_error hsupply
  · exact (le_firstNumber wrapped n).trans (le_of_joinAll_eq_error hjoin)
  · have hissued : s.issued = lastNumber (firstNumber wrapped n) fs := (joinAll_eq_ok hjoin).1
    have hfirst := le_firstNumber wrapped n
    have hlast := le_lastNumber (firstNumber wrapped n) fs
    have hweather := le_of_supply_eq_error hsupply
    omega

end Composition

open Composition (NumberedWithin Counted)

namespace Session

/-! ## Answers -/

/-- The ids that an answer gives out: the one that was asked for, or those of the elements that its
actions add. -/
def Reply.minted : Reply α → List String
  | .id s => [s]
  | .fragment (some f) => addedIds f.actions
  | .actions as => addedIds as
  | .composition c => addedIds c.actions
  | _ => []

/-- An operation on the common counter: where the counter stood before, what was answered, and where
it stood after. -/
structure Leg (α : Type) where
  before : Nat
  answer : Except Refusal (Reply α)
  after : Nat

/-- The ids that an operation gives out; one that fails gives out none. -/
def Leg.minted (l : Leg α) : List String :=
  match l.answer with
  | .ok reply => reply.minted
  | .error _ => []

/-- The counter did not go back, and what was given out is numbered from there on. -/
structure Leg.Mints (l : Leg α) : Prop where
  le : l.before ≤ l.after
  within : NumberedWithin l.before l.after l.minted

/-- A leg that gives out nothing. -/
theorem Leg.mints_of_nothing {before after : Nat} {answer : Except Refusal (Reply α)}
    (hle : before ≤ after) (h : ∀ reply, answer = .ok reply → reply.minted = []) :
    Leg.Mints ⟨before, answer, after⟩ := by
  refine ⟨hle, ?_⟩
  unfold Leg.minted
  split
  · rename_i reply hreply
    rw [h reply hreply]
    exact Composition.numberedWithin_nil _ _
  · exact Composition.numberedWithin_nil _ _

theorem Leg.mints_error {before after : Nat} {e : Refusal} (hle : before ≤ after) :
    Leg.Mints (α := α) ⟨before, .error e, after⟩ :=
  mints_of_nothing hle fun _ h => by cases h

/-- Legs that follow one another: each gives out numbers of its own. -/
structure Rising (n : Nat) (ls : List (Leg α)) : Prop where
  mints : ∀ l ∈ ls, n ≤ l.before ∧ l.Mints
  apart : ls.Pairwise fun l later => l.after ≤ later.before ∧ l.minted.Disjoint later.minted

theorem rising_cons {n : Nat} {l : Leg α} {ls : List (Leg α)} (hn : n ≤ l.before) (hl : l.Mints)
    (h : Rising l.after ls) : Rising n (l :: ls) := by
  constructor
  · refine List.forall_mem_cons.2 ⟨⟨hn, hl⟩, fun later hlater => ?_⟩
    obtain ⟨hafter, hmints⟩ := h.mints later hlater
    exact ⟨Nat.le_trans hn (Nat.le_trans hl.le hafter), hmints⟩
  · refine List.pairwise_cons.2 ⟨fun later hlater => ?_, h.apart⟩
    obtain ⟨hafter, hmints⟩ := h.mints later hlater
    exact ⟨hafter, hl.within.disjoint hafter hmints.within⟩

end Session

/-! ## Drafts -/

theorem Draft.counted_of_adds {n count : Nat} {d : Draft α} (h : Adds n count d.actions) :
    Counted d.fragment := by
  intro s hs
  obtain ⟨k, hk, hlow, -⟩ := Composition.numberedWithin_of_adds h s hs
  exact ⟨k, hk, by omega⟩

variable [Scalar α]

/-- Whatever the plan, a generator gives out the numbers after its start, in order. -/
theorem Generator.adds_of_draft? {g : Generator} {p : Plan α} {n : Nat} {d : Draft α}
    (h : g.draft? p n = .ok (some d)) :
    ∃ count, d.issued = n + count ∧ Adds n count d.actions := by
  have hscene : ∀ a, (Scene.builder? a).map (fun make => make p n) = some d →
      ∃ count, d.issued = n + count ∧ Adds n count d.actions := by
    intro a hbuilt
    obtain ⟨make, hmake, rfl⟩ := Option.map_eq_some_iff.1 hbuilt
    exact (Scene.grounded_of_builder? hmake p n).adds
  cases g with
  | scene => exact hscene p.archetype (Except.ok.inj h)
  | sceneOf a => exact hscene a (Except.ok.inj h)
  | figure =>
      obtain rfl := Option.some.inj (Except.ok.inj h)
      exact (Rig.grounded_animated p n).adds
  | rig =>
      obtain rfl := Option.some.inj (Except.ok.inj h)
      exact ⟨_, by simp only [Rig.draft]; omega, adds_rig p n⟩
  | shape =>
      obtain rfl := Option.some.inj (Except.ok.inj h)
      exact (Shape.grounded_build p n).adds
  | photo =>
      obtain rfl := Option.some.inj (Except.ok.inj h)
      exact (Photo.grounded_build p n).adds
  | pan =>
      obtain rfl := Option.some.inj (Except.ok.inj h)
      exact (Photo.grounded_pan p n).adds
  | layers =>
      obtain rfl := Option.some.inj (Except.ok.inj h)
      exact (Photo.grounded_layers p n).adds
  | edit =>
      obtain ⟨_, hbuilt, hsome⟩ := map_eq_ok_iff.1 h
      obtain rfl := Option.some.inj hsome
      exact (Edit.grounded_of_build hbuilt).adds

theorem Generator.le_of_supplied_eq_error {g : Generator} {p : Plan α} {n m : Nat} {fault : Fault}
    (h : g.supplied p n = .error (fault, m)) : n ≤ m := by
  unfold supplied at h
  split at h
  · simp only [Except.error.injEq, Prod.mk.injEq] at h
    omega
  · cases h
  · exact Composition.le_of_supply_eq_error (map_eq_error_iff.1 h)

theorem Generator.draft?_of_supplied {g : Generator} {p : Plan α} {n : Nat}
    {d? : Option (Draft α)} (h : g.supplied p n = .ok d?) : g.draft? p n = .ok d? := by
  unfold supplied at h
  split at h
  · cases h
  · rename_i hdraft
    rw [hdraft, Except.ok.inj h]
  · rename_i d hdraft
    obtain ⟨⟨⟩, -, rfl⟩ := map_eq_ok_iff.1 h
    exact hdraft

namespace Session

/-! ## Operations -/

/-- An operation carried out in a session. -/
def leg (settings : Settings α) (s : Session α) (op : Op α) : Leg α :=
  ⟨s.issued, (step settings s op).2, (step settings s op).1.issued⟩

/-- What one operation does to the counter. -/
theorem mints_leg (settings : Settings α) {s : Session α} (op : Op α)
    (h : ∀ f ∈ s.fragments, Counted f) : (leg settings s op).Mints := by
  unfold leg step
  cases op with
  | nextId =>
      dsimp only
      split
      · rename_i fault m hsupply
        exact Leg.mints_error (Composition.le_of_supply_eq_error hsupply)
      · refine ⟨Nat.le_succ _, fun id hid => ?_⟩
        obtain rfl := List.mem_singleton.1 hid
        exact ⟨_, Placeholder.wholeNumber?_id _, Nat.lt_succ_self _, Nat.le_refl _⟩
  | plan request =>
      dsimp only
      split
      · exact Leg.mints_of_nothing (Nat.le_refl _) fun reply hreply => by cases hreply; rfl
      · exact Leg.mints_error (Nat.le_refl _)
  | generate g =>
      dsimp only
      split
      · rename_i fault m hsupplied
        exact Leg.mints_error (Generator.le_of_supplied_eq_error hsupplied)
      · exact Leg.mints_of_nothing (Nat.le_refl _) fun reply hreply => by cases hreply; rfl
      · rename_i d hsupplied
        obtain ⟨count, hissued, hadds⟩ :=
          Generator.adds_of_draft? (Generator.draft?_of_supplied hsupplied)
        refine ⟨by dsimp only; omega, ?_⟩
        rw [hissued]
        exact Composition.numberedWithin_of_adds hadds
  | generateFresh g =>
      dsimp only
      split
      · exact Leg.mints_error (Nat.le_refl _)
      · exact Leg.mints_of_nothing (Nat.le_refl _) fun reply hreply => by cases hreply; rfl
  | gate =>
      dsimp only
      split
      · exact Leg.mints_error (Nat.le_refl _)
      · exact Leg.mints_of_nothing (Nat.le_refl _) fun reply hreply => by cases hreply; rfl
  | weather origin parent =>
      dsimp only
      split
      · rename_i fault m hsupply
        exact Leg.mints_error (Composition.le_of_supply_eq_error hsupply)
      · have hle := (Composition.le_issued s.plan s.issued).1
        have hadds := Composition.numberedWithin_of_adds
          (Composition.adds_overlay s.plan s.issued parent origin)
        rw [Nat.add_sub_cancel' hle] at hadds
        exact ⟨hle, hadds⟩
  | compose =>
      dsimp only
      split
      · rename_i fault m hcompose
        exact Leg.mints_error (Composition.le_of_compose_eq_error hcompose)
      · rename_i c hcompose
        obtain ⟨l⟩ := Composition.compose_layout hcompose
        obtain ⟨hle, hwithin⟩ := l.numberedWithin h
        exact ⟨hle, hwithin⟩
  | quality =>
      refine Leg.mints_of_nothing (Nat.le_refl _) fun reply hreply => ?_
      obtain ⟨assessment, -, rfl⟩ := map_eq_ok_iff.1 (mapError_eq_ok_iff.1 hreply)
      rfl
  | drop index =>
      dsimp only
      split
      · exact Leg.mints_error (Nat.le_refl _)
      · exact Leg.mints_of_nothing (Nat.le_refl _) fun reply hreply => by cases hreply; rfl

theorem counted_of_passAll {f : Fragment α} {r : Passage α} (h : Gate.passAll f.actions = .ok r)
    (hf : Counted f) : Counted { f with actions := r.actions } := by
  intro s hs
  obtain ⟨b, hb, hadded⟩ := List.mem_filterMap.1 hs
  obtain ⟨a, ha, hpass⟩ := Gate.exists_pass_of_mem h b hb
  rw [Gate.addedId?_of_pass hpass] at hadded
  exact hf s (List.mem_filterMap.2 ⟨a, ha, hadded⟩)

theorem counted_gateAll {fs : List (Fragment α)} {passed : List (Fragment α × List Rejection)}
    (h : gateAll fs = .ok passed) (hfs : ∀ f ∈ fs, Counted f) :
    ∀ f ∈ passed.map (·.1), Counted f := by
  induction fs generalizing passed with
  | nil =>
      obtain rfl := Except.ok.inj h
      exact List.forall_mem_nil _
  | cons f fs ih =>
      simp only [gateAll, bind_eq_ok_iff, pure_eq_ok, Except.ok.injEq] at h
      obtain ⟨r, hr, later, hlater, rfl⟩ := h
      rw [List.map_cons, List.forall_mem_cons]
      exact ⟨counted_of_passAll hr (hfs f (by simp)), ih hlater fun g hg => hfs g (by simp [hg])⟩

theorem counted_of_supplied {g : Generator} {p : Plan α} {n : Nat} {d? : Option (Draft α)}
    (h : g.supplied p n = .ok d?) : ∀ f ∈ (d?.map Draft.fragment).toList, Counted f := by
  intro f hf
  cases d? with
  | none => cases hf
  | some d =>
      obtain rfl := List.mem_singleton.1 hf
      obtain ⟨count, -, hadds⟩ := Generator.adds_of_draft? (Generator.draft?_of_supplied h)
      exact Draft.counted_of_adds hadds

/-- No operation brings in fragments that are numbered in another way. -/
theorem counted_step (settings : Settings α) {s : Session α} (op : Op α)
    (h : ∀ f ∈ s.fragments, Counted f) : ∀ f ∈ (step settings s op).1.fragments, Counted f := by
  unfold step
  cases op with
  | nextId | plan request | weather origin parent | compose =>
      dsimp only
      split <;> exact h
  | quality => exact h
  | generate g =>
      dsimp only
      split
      · exact h
      · exact h
      · rename_i d hsupplied
        exact List.forall_mem_append.2 ⟨h, counted_of_supplied hsupplied⟩
  | generateFresh g =>
      dsimp only
      split
      · exact h
      · rename_i d? hrun
        exact List.forall_mem_append.2
          ⟨h, counted_of_supplied (mapError_eq_ok_iff.1 hrun)⟩
  | gate =>
      dsimp only
      split
      · exact h
      · rename_i passed hpassed
        exact counted_gateAll hpassed h
  | drop index =>
      dsimp only
      split
      · exact h
      · rename_i k hk
        exact fun f hf => h f (List.mem_of_mem_eraseIdx hf)

/-! ## Runs -/

/-- An operation, with the plan and the fragments that it is carried out on. -/
structure Turn (α : Type) where
  plan : Plan α
  fragments : List (Fragment α)
  op : Op α

/-- Turns taken one after the other.  All they have in common is the counter. -/
def relay (settings : Settings α) (n : Nat) : List (Turn α) → List (Leg α)
  | [] => []
  | t :: rest =>
    let done := leg settings ⟨t.plan, n, t.fragments⟩ t.op
    done :: relay settings done.after rest

/-- The turns that a single session takes. -/
def turns (settings : Settings α) (s : Session α) : List (Op α) → List (Turn α)
  | [] => []
  | op :: rest => ⟨s.plan, s.fragments, op⟩ :: turns settings (step settings s op).1 rest

/-- The legs of a run that started at the counter `n`. -/
def legs (n : Nat) : List (Session α × Except Refusal (Reply α)) → List (Leg α)
  | [] => []
  | (s, answer) :: rest => ⟨n, answer, s.issued⟩ :: legs s.issued rest

/-- A session by itself is a relay. -/
theorem legs_run (settings : Settings α) (s : Session α) (ops : List (Op α)) :
    legs s.issued (run settings s ops) = relay settings s.issued (turns settings s ops) := by
  induction ops generalizing s with
  | nil => rfl
  | cons op ops ih =>
      rw [run, legs, ih, turns, relay]
      rfl

theorem counted_turns (settings : Settings α) {s : Session α} (ops : List (Op α))
    (h : ∀ f ∈ s.fragments, Counted f) :
    ∀ t ∈ turns settings s ops, ∀ f ∈ t.fragments, Counted f := by
  induction ops generalizing s with
  | nil => exact List.forall_mem_nil _
  | cons op ops ih => exact List.forall_mem_cons.2 ⟨h, ih (counted_step settings op h)⟩

theorem rising_relay (settings : Settings α) (n : Nat) {ts : List (Turn α)}
    (h : ∀ t ∈ ts, ∀ f ∈ t.fragments, Counted f) : Rising n (relay settings n ts) := by
  induction ts generalizing n with
  | nil => exact ⟨List.forall_mem_nil _, List.Pairwise.nil⟩
  | cons t ts ih =>
      obtain ⟨ht, hts⟩ := List.forall_mem_cons.1 h
      have hleg : (leg settings ⟨t.plan, n, t.fragments⟩ t.op).Mints :=
        mints_leg settings t.op ht
      exact rising_cons (Nat.le_refl n) hleg (ih _ hts)

/-- Operations on one counter, on whatever plans and fragments and in whatever order: the counter
never goes back, every id given out is numbered between the counter before and after, and no two
operations give out the same id.  In particular so it is in the run of a session. -/
theorem relay_mints (settings : Settings α) :
    (∀ (n : Nat) (ts : List (Turn α)), (∀ t ∈ ts, ∀ f ∈ t.fragments, Counted f) →
      Rising n (relay settings n ts)) ∧
    ∀ (s : Session α) (ops : List (Op α)), (∀ f ∈ s.fragments, Counted f) →
      Rising s.issued (legs s.issued (run settings s ops)) := by
  refine ⟨fun n ts hts => rising_relay settings n hts, fun s ops hs => ?_⟩
  rw [legs_run]
  exact rising_relay settings s.issued (counted_turns settings ops hs)

/-- A session that starts with a group numbered from one. -/
def opened : Session Rat := ⟨Composition.rainy, 0, [Composition.moving (.text "x")]⟩

/-- Rain, a composition of a group that is numbered from one, and a single id. -/
def shared : List (Turn Rat) := [
  ⟨Composition.rainy, [], .weather (0, 0) none⟩,
  ⟨Composition.rainy, [Composition.moving (.text "x")], .compose⟩,
  ⟨Composition.rainy, [], .nextId⟩]

theorem counted_moving (property : Value Rat) : Counted (Composition.moving property) := by
  intro s hs
  obtain ⟨k, hk, hpos, -⟩ := (Composition.risesWithin_moving property).numberedWithin s hs
  exact ⟨k, hk, hpos⟩

/-- Rain and a composition do not get in each other's way, nor do compositions of the same group. -/
theorem relay_mints_shared :
    ((∀ t ∈ shared, ∀ f ∈ t.fragments, Counted f) ∧
      Rising 0 (relay ⟨800, 600, 4, 8000, .info⟩ 0 shared)) ∧
    ((∀ f ∈ opened.fragments, Counted f) ∧
      Rising opened.issued (legs opened.issued (run ⟨800, 600, 4, 8000, .info⟩ opened
        [.compose, .compose, .generate .edit]))) := by
  have hopened : ∀ f ∈ opened.fragments, Counted f :=
    List.forall_mem_singleton.2 (counted_moving _)
  have hshared : ∀ t ∈ shared, ∀ f ∈ t.fragments, Counted f := by
    unfold shared
    simpa using counted_moving (.text "x")
  obtain ⟨hrelay, hrun⟩ := relay_mints (α := Rat) ⟨800, 600, 4, 8000, .info⟩
  exact ⟨⟨hshared, hrelay 0 shared hshared⟩, hopened, hrun opened _ hopened⟩

end Session

end Storyboard
