import Storyboard.Proofs.Mention
/-!
# The layout of a composition

What a composition is made of: the wrapper, each fragment moved on past the numbers before it, the
camera and the weather.  Joining is taken apart here once; statements about compositions go
through this layout.
-/

namespace Storyboard.Composition

open Placeholder (raisedItems raisedText itemRuns textRuns peak Readable Movable)

variable {α : Type}

/-- The highest number of a placeholder in a fragment. -/
def peakOf (f : Fragment α) : Nat := peak (itemRuns f.actions)

/-- Actions moved on by `k`; without a distance they stay as they are. -/
def moved (k : Nat) (as : List (Value α)) : List (Value α) :=
  if k = 0 then as else raisedItems k as

/-- A text moved on by `k`; without a distance it stays as it is. -/
def movedText (k : Nat) (s : String) : String := if k = 0 then s else raisedText k s

/-- Fragments, each with the last number given out before it. -/
def offsets (n : Nat) : List (Fragment α) → List (Nat × Fragment α)
  | [] => []
  | f :: rest => (n, f) :: offsets (n + peakOf f) rest

/-- The last number given out once the fragments are joined. -/
def lastNumber (n : Nat) : List (Fragment α) → Nat
  | [] => n
  | f :: rest => lastNumber (n + peakOf f) rest

theorem le_lastNumber (n : Nat) (fs : List (Fragment α)) : n ≤ lastNumber n fs := by
  induction fs generalizing n with
  | nil => exact Nat.le_refl n
  | cons f fs ih => exact Nat.le_trans (Nat.le_add_right _ _) (ih _)

theorem lastNumber_le {m n : Nat} {fs : List (Fragment α)} (h : ∀ f ∈ fs, peakOf f ≤ m) :
    lastNumber n fs ≤ n + m * fs.length := by
  induction fs generalizing n with
  | nil => exact Nat.le_refl n
  | cons f fs ih =>
      obtain ⟨hf, hfs⟩ := List.forall_mem_cons.1 h
      calc lastNumber n (f :: fs)
          ≤ n + peakOf f + m * fs.length := ih hfs
        _ ≤ n + m * (f :: fs).length := by
          rw [List.length_cons, Nat.mul_succ]
          omega

theorem lastNumber_mono {m n : Nat} {fs : List (Fragment α)} (h : m ≤ n) :
    lastNumber m fs ≤ lastNumber n fs := by
  induction fs generalizing m n with
  | nil => exact h
  | cons f fs ih => exact ih (Nat.add_le_add_right h _)

/-- A fragment as it is joined: moved on, and with its root under the wrapper when it is the
first with a root. -/
def emitted (wrapper : Option String) (anchored : Bool) (k : Nat) (f : Fragment α) :
    List (Value α) :=
  match anchored, f.root?, wrapper with
  | false, some root, some parent => reparent (movedText k root) parent (moved k f.actions)
  | _, _, _ => moved k f.actions

/-- Fragments as they are joined, after the number `n`. -/
def emittedAll (wrapper : Option String) (anchored : Bool) (n : Nat) :
    List (Fragment α) → List (Value α)
  | [] => []
  | f :: rest =>
    emitted wrapper anchored n f
      ++ emittedAll wrapper (anchored || f.root?.isSome) (n + peakOf f) rest

/-- The id that the first root has once the fragments are joined. -/
def anchorId? (n : Nat) : List (Fragment α) → Option String
  | [] => none
  | f :: rest => (f.root?.map (movedText n)).or (anchorId? (n + peakOf f) rest)

/-- The numbers of a fragment can be read, and written once they are moved on by `k`. -/
def Writable (k : Nat) (f : Fragment α) : Prop :=
  Readable (itemRuns f.actions) ∧ (k ≠ 0 → Movable k (itemRuns f.actions))

theorem shifted_eq_ok {k : Nat} {f : Fragment α} {as : List (Value α)}
    (h : shifted k f = .ok as) :
    (k ≠ 0 → Movable k (itemRuns f.actions)) ∧ as = moved k f.actions := by
  unfold shifted at h
  unfold moved
  split at h
  · rename_i hk
    simp only [Except.ok.injEq] at h
    exact ⟨fun hne => absurd hk hne, by rw [if_pos hk, h]⟩
  · rename_i hk
    rw [if_neg hk]
    obtain ⟨hmovable, hmoved⟩ := Placeholder.shiftItems_eq_ok_iff.1 h
    exact ⟨fun _ => hmovable, hmoved⟩

variable [Scalar α]

theorem anchorAfter_eq_ok {s : Progress α} {f : Fragment α} {anchor : Option (String × (α × α))}
    (h : anchorAfter s f = .ok anchor) :
    anchor.map (·.1) = (s.anchor.map (·.1)).or (f.root?.map (movedText s.issued)) := by
  unfold anchorAfter at h
  split at h
  · rename_i root hs hroot
    by_cases hk : s.issued = 0
    · simp only [hk, if_true, ok_bind, bind_eq_ok_iff, pure_eq_ok, Except.ok.injEq] at h
      obtain ⟨origin, -, rfl⟩ := h
      simp [hs, hroot, movedText, hk]
    · simp only [hk, if_false, bind_eq_ok_iff, pure_eq_ok, Except.ok.injEq] at h
      obtain ⟨id, hid, origin, -, rfl⟩ := h
      have hmoved := (Placeholder.shiftText_eq_ok_iff.1 hid).2
      simp [hs, hroot, movedText, hk, hmoved]
  · rename_i hother
    simp only [Except.ok.injEq] at h
    subst h
    cases hs : s.anchor with
    | some a => simp
    | none =>
        cases hroot : f.root? with
        | none => simp
        | some root => exact absurd hroot (hother root hs)

/-- What joining one fragment does to what was joined before. -/
theorem join_eq_ok {wrapper : Option String} {s s' : Progress α} {f : Fragment α}
    (h : join wrapper s f = .ok s') :
    s'.issued = s.issued + peakOf f ∧ Writable s.issued f ∧
      s'.parts.flatMap (·.actions) =
        s.parts.flatMap (·.actions) ++ emitted wrapper s.anchor.isSome s.issued f ∧
      s'.anchor.map (·.1) = (s.anchor.map (·.1)).or (f.root?.map (movedText s.issued)) := by
  simp only [join, bind_eq_ok_iff, mapError_eq_ok_iff, pure_eq_ok, Except.ok.injEq] at h
  obtain ⟨actions, hactions, highest, hhighest, anchor, hanchor, rfl⟩ := h
  obtain ⟨hmovable, hmoved⟩ := shifted_eq_ok hactions
  obtain ⟨hreadable, hpeak⟩ := Placeholder.highestItem_eq_ok_iff.1 hhighest
  have hid := anchorAfter_eq_ok hanchor
  refine ⟨by simp [hpeak, peakOf], ⟨hreadable, hmovable⟩, ?_, hid⟩
  simp only [List.flatMap_append, List.flatMap_cons, List.flatMap_nil, List.append_nil]
  congr 1
  unfold emitted
  cases hs : s.anchor with
  | some a => simp [hmoved]
  | none =>
      rw [hs] at hid
      cases hroot : f.root? with
      | none =>
          rw [hroot] at hid
          have hnone : anchor = none := by simpa using hid
          simp [hnone, hmoved]
      | some root =>
          rw [hroot] at hid
          obtain ⟨a, rfl, ha⟩ : ∃ a, anchor = some a ∧ a.1 = movedText s.issued root := by
            simpa using hid
          cases wrapper <;> simp [hmoved, ha]

theorem joinAll_cons_eq_ok_iff {wrapper : Option String} {s s' : Progress α} {f : Fragment α}
    {fs : List (Fragment α)} :
    joinAll wrapper s (f :: fs) = .ok s' ↔
      ∃ s₁, join wrapper s f = .ok s₁ ∧ joinAll wrapper s₁ fs = .ok s' :=
  bind_eq_ok_iff

theorem joinAll_eq_ok {wrapper : Option String} {s s' : Progress α} {fs : List (Fragment α)}
    (h : joinAll wrapper s fs = .ok s') :
    s'.issued = lastNumber s.issued fs ∧
      (∀ part ∈ offsets s.issued fs, Writable part.1 part.2) ∧
      s'.parts.flatMap (·.actions) =
        s.parts.flatMap (·.actions) ++ emittedAll wrapper s.anchor.isSome s.issued fs ∧
      s'.anchor.map (·.1) = (s.anchor.map (·.1)).or (anchorId? s.issued fs) := by
  induction fs generalizing s with
  | nil =>
      obtain rfl := Except.ok.inj h
      simp [lastNumber, offsets, emittedAll, anchorId?]
  | cons f fs ih =>
      obtain ⟨s₁, hjoin, h⟩ := joinAll_cons_eq_ok_iff.1 h
      obtain ⟨hissued, hwritable, hparts, hanchor⟩ := join_eq_ok hjoin
      obtain ⟨hissued', hwritable', hparts', hanchor'⟩ := ih h
      have hsome : s₁.anchor.isSome = (s.anchor.isSome || f.root?.isSome) := by
        have := congrArg Option.isSome hanchor
        simpa using this
      refine ⟨?_, ?_, ?_, ?_⟩
      · rw [hissued', hissued, lastNumber]
      · rw [hissued] at hwritable'
        exact List.forall_mem_cons.2 ⟨hwritable, hwritable'⟩
      · rw [hparts', hparts, hsome, hissued, emittedAll, List.append_assoc]
      · rw [hanchor', hanchor, hissued, anchorId?, Option.or_assoc]

/-- The id of the wrapper, when there is one. -/
def wrapperId? (wrapped : Bool) (n : Nat) : Option String :=
  if wrapped then some (Placeholder.id (n + 1)) else none

/-- The last number given out before the fragments. -/
def firstNumber (wrapped : Bool) (n : Nat) : Nat := if wrapped then n + 1 else n

theorem le_firstNumber (wrapped : Bool) (n : Nat) : n ≤ firstNumber wrapped n := by
  unfold firstNumber
  split <;> omega

omit [Scalar α] in
theorem start_eq (wrapped : Bool) (n : Nat) :
    start (α := α) wrapped n =
      (wrapperId? wrapped n, { issued := firstNumber wrapped n }) := by
  cases wrapped <;> rfl

/-- A composition is finished from fragments that were joined one after the other, when there are
numbers for the wrapper and for the weather. -/
theorem compose_eq_ok_iff {p : Plan α} {fs : List (Fragment α)} {n : Nat} {c : Composition α} :
    compose p fs n = .ok c ↔
      ∃ wrapped s, needsWrapper p fs = .ok wrapped ∧
        (n < firstNumber wrapped n → firstNumber wrapped n < Placeholder.ceiling) ∧
        joinAll (wrapperId? wrapped n) { issued := firstNumber wrapped n } fs = .ok s ∧
        (s.issued < Weather.issued p s.issued →
          Weather.issued p s.issued < Placeholder.ceiling) ∧
        finish p (wrapperId? wrapped n) s = c := by
  simp only [compose, start_eq, bind_eq_ok_iff, mapError_eq_ok_iff, pure_eq_ok, Except.ok.injEq]
  constructor
  · rintro ⟨wrapped, hwrapped, ⟨⟩, hfirst, s, hjoin, ⟨⟩, hlast, hfinish⟩
    exact ⟨wrapped, s, hwrapped, Placeholder.supply_eq_ok_iff.1 hfirst, hjoin,
      Placeholder.supply_eq_ok_iff.1 hlast, hfinish⟩
  · rintro ⟨wrapped, s, hwrapped, hfirst, hjoin, hlast, hfinish⟩
    exact ⟨wrapped, hwrapped, (), Placeholder.supply_eq_ok_iff.2 hfirst, s, hjoin, (),
      Placeholder.supply_eq_ok_iff.2 hlast, hfinish⟩

/-- The actions that move the anchor. -/
def cameraActions (p : Plan α) (driven : Option String) (origin : α × α) : List (Action α) :=
  match driven with
  | some id => if p.camera then Camera.motion p id origin else []
  | none => []

/-- A composition is the wrapper, the fragments, the camera and the weather. -/
structure Layout (p : Plan α) (fs : List (Fragment α)) (n : Nat) (c : Composition α) where
  wrapped : Bool
  origin : α × α
  /-- The last number given out before the weather. -/
  last : Nat
  last_eq : last = lastNumber (firstNumber wrapped n) fs
  needsWrapper_eq : needsWrapper p fs = .ok wrapped
  actions_eq : c.actions =
    wrapperActions (wrapperId? wrapped n)
      ++ emittedAll (wrapperId? wrapped n) false (firstNumber wrapped n) fs
      ++ (cameraActions p ((wrapperId? wrapped n).or (anchorId? (firstNumber wrapped n) fs))
          origin).map Action.toValue
      ++ (Weather.overlay p last ((wrapperId? wrapped n).or (anchorId? (firstNumber wrapped n) fs))
          origin).map Action.toValue
  issued_eq : c.issued = Weather.issued p last
  writable : ∀ part ∈ offsets (firstNumber wrapped n) fs, Writable part.1 part.2
  first_writable : n < firstNumber wrapped n → firstNumber wrapped n < Placeholder.ceiling
  issued_writable : last < c.issued → c.issued < Placeholder.ceiling

theorem compose_layout {p : Plan α} {fs : List (Fragment α)} {n : Nat} {c : Composition α}
    (h : compose p fs n = .ok c) : Nonempty (Layout p fs n c) := by
  obtain ⟨wrapped, s, hwrapped, hfirst, hjoin, hlast, rfl⟩ := compose_eq_ok_iff.1 h
  obtain ⟨hissued, hwritable, hparts, hanchor⟩ := joinAll_eq_ok hjoin
  have hflat : s.parts.flatMap (·.actions) =
      emittedAll (wrapperId? wrapped n) false (firstNumber wrapped n) fs := by
    simpa using hparts
  have hid : s.anchor.map (·.1) = anchorId? (firstNumber wrapped n) fs := by
    simpa using hanchor
  -- The wrapper takes the place of the anchor for camera and weather.
  cases wrapped with
  | true =>
      refine ⟨⟨true, (0.0, 0.0), s.issued, hissued, hwrapped, ?_, rfl, hwritable, hfirst, hlast⟩⟩
      rw [← hflat]
      cases hs : s.anchor <;> cases hp : p.camera <;>
        simp [finish, hs, hp, wrapperId?, cameraActions]
  | false =>
      refine ⟨⟨false, (s.anchor.map (·.2)).getD (0.0, 0.0), s.issued, hissued, hwrapped, ?_,
        rfl, hwritable, hfirst, hlast⟩⟩
      rw [← hflat, ← hid]
      cases hs : s.anchor <;> cases hp : p.camera <;>
        simp [finish, hs, hp, wrapperId?, cameraActions]

theorem summaries_of_joinAll {wrapper : Option String} {s s' : Progress α}
    {fs : List (Fragment α)} (h : joinAll wrapper s fs = .ok s') :
    s'.summaries = s.summaries ++ (fs.map (·.summary)).filter (· ≠ "") := by
  induction fs generalizing s with
  | nil =>
      obtain rfl := Except.ok.inj h
      simp
  | cons f fs ih =>
      obtain ⟨s₁, hjoin, h⟩ := joinAll_cons_eq_ok_iff.1 h
      rw [ih h]
      simp only [join, bind_eq_ok_iff, mapError_eq_ok_iff, pure_eq_ok, Except.ok.injEq] at hjoin
      obtain ⟨actions, -, highest, -, anchor, -, rfl⟩ := hjoin
      by_cases hempty : f.summary = "" <;> simp [hempty]

/-- The summary of a composition is made of those of its fragments. -/
theorem summary_of_compose {p : Plan α} {fs : List (Fragment α)} {n : Nat} {c : Composition α}
    (h : compose p fs n = .ok c) :
    c.summary = " ".intercalate ((fs.map (·.summary)).filter (· ≠ "")) := by
  obtain ⟨wrapped, s, -, -, hjoin, -, rfl⟩ := compose_eq_ok_iff.1 h
  have hsummaries := summaries_of_joinAll hjoin
  rw [List.nil_append] at hsummaries
  show " ".intercalate s.summaries = _
  rw [hsummaries]

end Storyboard.Composition
