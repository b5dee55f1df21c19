import Mathlib.Data.List.Forall2
import Storyboard.Proofs.Compiler.Steps
/-!
# What a composition contains

Composing loses, doubles and reorders nothing.  Every fragment is there as one block, in the order
of the fragments, and differs from the fragment by the numbers alone; under a wrapper, the anchor's
root has a new parent besides.  The steps hold the same blocks.
-/

namespace Storyboard.Composition

open Placeholder (renumber highestItem itemRuns peak)
open Quality (payloadOf)

variable {α : Type}

/-- An action placed under a wrapper: the payload names the wrapper as parent, and everything else
is as before. -/
structure PlacedUnder (wrapper : String) (before after : Value α) : Prop where
  parent : Fields.get? (payloadOf after) "targetParentId" = some (.text wrapper)
  payload : ∀ name, name ≠ "targetParentId" →
    Fields.get? (payloadOf after) name = Fields.get? (payloadOf before) name
  rest : ∀ name, name ≠ "payload" → after.field? name = before.field? name

/-- What becomes of one action of the anchor: the one that adds the root is placed under the
wrapper, any other is kept. -/
def Rehung (wrapper root : String) (before after : Value α) : Prop :=
  if addedId? before = some root then PlacedUnder wrapper before after else after = before

/-- What becomes of the block of the anchor. -/
def RehungBlock (wrapper : Option String) (root : String) (before after : List (Value α)) : Prop :=
  match wrapper with
  | none => after = before
  | some w => List.Forall₂ (Rehung w root) before after

/-- A fragment's actions moved on past the number `k`, and the highest number in them before. -/
structure Shifted (k : Nat) (f : Fragment α) (block : List (Value α)) (highest : Nat) : Prop where
  block_eq : renumber k (.list f.actions) = .ok (.list block)
  highest_eq : highestItem f.actions = .ok highest

/-- Fragments from the number `k` on, each moved on past the numbers of those before it. -/
inductive Joined : Nat → List (Fragment α) → List (List (Value α)) → Nat → Prop
  | nil (k : Nat) : Joined k [] [] k
  | cons {k highest last : Nat} {f : Fragment α} {fs : List (Fragment α)}
      {block : List (Value α)} {blocks : List (List (Value α))}
      (shifted : Shifted k f block highest) (rest : Joined (k + highest) fs blocks last) :
      Joined k (f :: fs) (block :: blocks) last

/-- Fragments from the number `k` on, with the anchor among them.  The anchor is the first fragment
with a root; only its block is rehung. -/
inductive Arranged [Scalar α] (wrapper : Option String) :
    Nat → List (Fragment α) → Option (String × (α × α)) → List (List (Value α)) → Nat → Prop
  | nil (k : Nat) : Arranged wrapper k [] none [] k
  | rootless {k highest last : Nat} {f : Fragment α} {fs : List (Fragment α)}
      {anchor : Option (String × (α × α))} {block : List (Value α)}
      {blocks : List (List (Value α))} (root : f.root? = none)
      (shifted : Shifted k f block highest)
      (rest : Arranged wrapper (k + highest) fs anchor blocks last) :
      Arranged wrapper k (f :: fs) anchor (block :: blocks) last
  | anchor {k highest last : Nat} {f : Fragment α} {fs : List (Fragment α)} {r id : String}
      {origin : α × α} {block rehung : List (Value α)} {blocks : List (List (Value α))}
      (root : f.root? = some r) (moved : renumber (α := α) k (.text r) = .ok (.text id))
      (stands : originOf f = .ok origin) (shifted : Shifted k f block highest)
      (hung : RehungBlock wrapper id block rehung) (rest : Joined (k + highest) fs blocks last) :
      Arranged wrapper k (f :: fs) (some (id, origin)) (rehung :: blocks) last

/-- What camera and weather hang on, and where it stands: the wrapper, else the anchor. -/
def mount [Scalar α] (wrapper : Option String) (anchor : Option (String × (α × α))) :
    Option String × (α × α) :=
  match wrapper, anchor with
  | some w, _ => (some w, (0.0, 0.0))
  | none, some (id, origin) => (some id, origin)
  | none, none => (none, (0.0, 0.0))

/-! ## Blocks -/

theorem rehung_placeUnder {id wrapper : String} (a : Value α) :
    Rehung wrapper id a (if adds id a then placeUnder (some wrapper) a else a) := by
  unfold Rehung
  by_cases hadds : adds id a = true
  · have hadded := adds_iff.1 hadds
    obtain ⟨-, payload, hpayload, -⟩ := addedId?_eq_some_iff.1 hadded
    have hafter := payloadOf_eq (payload_placeUnder (some wrapper) hpayload)
    rw [if_pos hadded, if_pos hadds]
    refine ⟨?_, ?_, ?_⟩
    · rw [hafter, Fields.get?_set_self]
      rfl
    · intro name hname
      rw [hafter, payloadOf_eq hpayload, Fields.get?_set_ne hname.symm]
    · intro name hname
      cases a with
      | object fields =>
          simp only [Value.field?] at hpayload ⊢
          simp only [placeUnder, hpayload]
          exact Fields.get?_set_ne hname.symm
      | _ => simp [Value.field?] at hpayload
  · have hadded : addedId? a ≠ some id := fun h => hadds (adds_iff.2 h)
    rw [if_neg hadded, if_neg hadds]

theorem rehungBlock_reparent (id wrapper : String) (block : List (Value α)) :
    RehungBlock (some wrapper) id block (reparent id wrapper block) := by
  show List.Forall₂ _ block (block.map _)
  rw [List.forall₂_map_right_iff, List.forall₂_same]
  exact fun a _ => rehung_placeUnder a

theorem renumber_of_shifted {k : Nat} {f : Fragment α} {block : List (Value α)}
    (h : shifted k f = .ok block) : renumber k (.list f.actions) = .ok (.list block) := by
  unfold shifted at h
  unfold renumber
  split at h
  · rename_i hk
    rw [Except.ok.inj h, if_pos (by omega)]
  · rename_i hk
    rw [if_neg (by omega), Placeholder.shiftAll, h]
    rfl

theorem length_of_joined {k last : Nat} {fs : List (Fragment α)} {blocks : List (List (Value α))}
    (h : Joined k fs blocks last) : blocks.length = fs.length := by
  induction h with
  | nil => rfl
  | cons _ _ ih => rw [List.length_cons, List.length_cons, ih]

/-- The step of a fragment. -/
def partStep (f : Fragment α) (block : List (Value α)) : PlanStep α :=
  ⟨if f.title = "" then "Direct Edit" else f.title, block⟩

theorem flatMap_partStep {fs : List (Fragment α)} {blocks : List (List (Value α))}
    (h : blocks.length = fs.length) :
    (List.zipWith partStep fs blocks).flatMap (·.actions) = blocks.flatten := by
  induction fs generalizing blocks with
  | nil => simp [List.length_eq_zero_iff.1 h]
  | cons f fs ih =>
      cases blocks with
      | nil => simp at h
      | cons block blocks =>
          have hrest : blocks.length = fs.length := by simpa using h
          rw [List.zipWith_cons_cons, List.flatMap_cons, ih hrest, List.flatten_cons]
          rfl

variable [Scalar α]

theorem length_of_arranged {wrapper : Option String} {k last : Nat} {fs : List (Fragment α)}
    {anchor : Option (String × (α × α))} {blocks : List (List (Value α))}
    (h : Arranged wrapper k fs anchor blocks last) : blocks.length = fs.length := by
  induction h with
  | nil => rfl
  | rootless _ _ _ ih => rw [List.length_cons, List.length_cons, ih]
  | anchor _ _ _ _ _ rest => rw [List.length_cons, List.length_cons, length_of_joined rest]

/-- The anchor is there as soon as some fragment has a root. -/
theorem isSome_anchor_iff {wrapper : Option String} {k last : Nat} {fs : List (Fragment α)}
    {anchor : Option (String × (α × α))} {blocks : List (List (Value α))}
    (h : Arranged wrapper k fs anchor blocks last) :
    anchor.isSome = true ↔ ∃ f ∈ fs, f.root?.isSome = true := by
  induction h with
  | nil => simp
  | rootless hnone _ _ ih => simp [ih, hnone]
  | anchor root => simp [root]

/-! ## Joining -/

/-- The id and the place that a root has once its fragment is joined. -/
theorem stands_of_anchorAfter {s : Progress α} {f : Fragment α} {root : String}
    {anchor : Option (String × (α × α))} (hs : s.anchor = none) (hroot : f.root? = some root)
    (h : anchorAfter s f = .ok anchor) :
    ∃ id origin, renumber (α := α) s.issued (.text root) = .ok (.text id) ∧
      originOf f = .ok origin ∧ anchor = some (id, origin) := by
  unfold anchorAfter at h
  simp only [hs, hroot] at h
  unfold renumber
  by_cases hk : s.issued = 0
  · simp only [hk, if_true, ok_bind, bind_eq_ok_iff, pure_eq_ok, Except.ok.injEq] at h
    obtain ⟨origin, horigin, rfl⟩ := h
    exact ⟨root, origin, by simp [hk], horigin, rfl⟩
  · simp only [hk, if_false, bind_eq_ok_iff, pure_eq_ok, Except.ok.injEq] at h
    obtain ⟨id, hid, origin, horigin, rfl⟩ := h
    refine ⟨id, origin, ?_, horigin, rfl⟩
    rw [if_neg (by omega), Placeholder.shiftAll, hid]
    rfl

theorem anchorAfter_of_some {s : Progress α} {f : Fragment α} {a : String × (α × α)}
    {anchor : Option (String × (α × α))} (hs : s.anchor = some a)
    (h : anchorAfter s f = .ok anchor) : anchor = some a := by
  unfold anchorAfter at h
  simp only [hs, Except.ok.injEq] at h
  exact h.symm

theorem anchorAfter_of_rootless {s : Progress α} {f : Fragment α}
    {anchor : Option (String × (α × α))} (hroot : f.root? = none)
    (h : anchorAfter s f = .ok anchor) : anchor = s.anchor := by
  unfold anchorAfter at h
  cases hs : s.anchor <;> simp only [hs, hroot, Except.ok.injEq] at h <;> exact h.symm

/-- What joining a fragment adds to what was joined before. -/
inductive JoinsTo (wrapper : Option String) (s : Progress α) (f : Fragment α) :
    Progress α → Prop
  | part {block : List (Value α)} {highest : Nat} {summaries : List String}
      (kept : s.anchor ≠ none ∨ f.root? = none) (shifted : Shifted s.issued f block highest) :
      JoinsTo wrapper s f
        ⟨s.issued + highest, s.parts ++ [partStep f block], summaries, s.anchor⟩
  | anchor {root id : String} {origin : α × α} {block rehung : List (Value α)} {highest : Nat}
      {summaries : List String} (new : s.anchor = none) (root_eq : f.root? = some root)
      (moved : renumber (α := α) s.issued (.text root) = .ok (.text id))
      (stands : originOf f = .ok origin) (shifted : Shifted s.issued f block highest)
      (hung : RehungBlock wrapper id block rehung) :
      JoinsTo wrapper s f
        ⟨s.issued + highest, s.parts ++ [partStep f rehung], summaries, some (id, origin)⟩

theorem joinsTo_of_join {wrapper : Option String} {s s' : Progress α} {f : Fragment α}
    (h : join wrapper s f = .ok s') : JoinsTo wrapper s f s' := by
  simp only [join, bind_eq_ok_iff, mapError_eq_ok_iff, pure_eq_ok, Except.ok.injEq] at h
  obtain ⟨block, hblock, highest, hhighest, anchor, hanchor, rfl⟩ := h
  have hshifted : Shifted s.issued f block highest := ⟨renumber_of_shifted hblock, hhighest⟩
  cases hs : s.anchor with
  | some a =>
      obtain rfl := anchorAfter_of_some hs hanchor
      have hpart (summaries : List String) : JoinsTo wrapper s f
          ⟨s.issued + highest, s.parts ++ [partStep f block], summaries, s.anchor⟩ :=
        .part (.inl (by simp [hs])) hshifted
      rw [hs] at hpart
      exact hpart _
  | none =>
      cases hroot : f.root? with
      | none =>
          obtain rfl := anchorAfter_of_rootless hroot hanchor
          have hpart (summaries : List String) : JoinsTo wrapper s f
              ⟨s.issued + highest, s.parts ++ [partStep f block], summaries, s.anchor⟩ :=
            .part (.inr hroot) hshifted
          rw [hs] at hpart ⊢
          exact hpart _
      | some root =>
          obtain ⟨id, origin, hmoved, hstands, rfl⟩ := stands_of_anchorAfter hs hroot hanchor
          cases wrapper with
          | none => exact .anchor hs hroot hmoved hstands hshifted rfl
          | some w =>
              exact .anchor hs hroot hmoved hstands hshifted (rehungBlock_reparent id w block)

/-- After the anchor, fragments are joined as they are. -/
theorem joined_of_joinAll {wrapper : Option String} {s s' : Progress α} {fs : List (Fragment α)}
    (hs : s.anchor ≠ none) (h : joinAll wrapper s fs = .ok s') :
    ∃ blocks, Joined s.issued fs blocks s'.issued ∧
      s'.parts = s.parts ++ List.zipWith partStep fs blocks ∧ s'.anchor = s.anchor := by
  induction fs generalizing s with
  | nil =>
      obtain rfl := Except.ok.inj h
      exact ⟨[], .nil _, by simp, rfl⟩
  | cons f fs ih =>
      obtain ⟨s₁, hjoin, h⟩ := joinAll_cons_eq_ok_iff.1 h
      cases joinsTo_of_join hjoin with
      | part kept shifted =>
          obtain ⟨blocks, hblocks, hparts, hanchor⟩ := ih (by exact hs) h
          exact ⟨_, .cons shifted hblocks, by simp [hparts], hanchor⟩
      | anchor new => exact absurd new hs

theorem arranged_of_joinAll {wrapper : Option String} {s s' : Progress α}
    {fs : List (Fragment α)} (hs : s.anchor = none) (h : joinAll wrapper s fs = .ok s') :
    ∃ blocks, Arranged wrapper s.issued fs s'.anchor blocks s'.issued ∧
      s'.parts = s.parts ++ List.zipWith partStep fs blocks := by
  induction fs generalizing s with
  | nil =>
      obtain rfl := Except.ok.inj h
      rw [hs]
      exact ⟨[], .nil _, by simp⟩
  | cons f fs ih =>
      obtain ⟨s₁, hjoin, h⟩ := joinAll_cons_eq_ok_iff.1 h
      cases joinsTo_of_join hjoin with
      | part kept shifted =>
          have hroot : f.root? = none := kept.resolve_left fun hne => hne hs
          obtain ⟨blocks, hblocks, hparts⟩ := ih (by exact hs) h
          exact ⟨_, .rootless hroot shifted hblocks, by simp [hparts]⟩
      | anchor new root moved stands shifted hung =>
          obtain ⟨blocks, hblocks, hparts, hanchor⟩ := joined_of_joinAll (by simp) h
          rw [hanchor]
          exact ⟨_, .anchor root moved stands shifted hung hblocks, by simp [hparts]⟩

/-! ## Compositions -/

/-- What a composition consists of besides camera and weather. -/
structure Contents (p : Plan α) (fs : List (Fragment α)) (n : Nat) (c : Composition α) where
  wrapped : Bool
  anchor : Option (String × (α × α))
  blocks : List (List (Value α))
  /-- The last number given out before the weather. -/
  last : Nat
  needsWrapper_eq : needsWrapper p fs = .ok wrapped
  arranged : Arranged (wrapperId? wrapped n) (firstNumber wrapped n) fs anchor blocks last
  anchor_eq : c.anchor = anchor.map (·.1)
  issued_eq : c.issued = Weather.issued p last

namespace Contents

variable {p : Plan α} {fs : List (Fragment α)} {n : Nat} {c : Composition α}

/-- The action that adds the wrapper, if there is one. -/
def wrapping (k : Contents p fs n c) : List (Value α) :=
  wrapperActions (wrapperId? k.wrapped n)

/-- What camera and weather hang on, and where it stands. -/
def mounted (k : Contents p fs n c) : Option String × (α × α) :=
  mount (wrapperId? k.wrapped n) k.anchor

def camera (k : Contents p fs n c) : List (Value α) :=
  (cameraActions p k.mounted.1 k.mounted.2).map Action.toValue

def weather (k : Contents p fs n c) : List (Value α) :=
  (Weather.overlay p k.last k.mounted.1 k.mounted.2).map Action.toValue

end Contents

/-- A finished composition is put together from the parts that were joined. -/
theorem finish_mount (p : Plan α) (wrapper : Option String) (s : Progress α) :
    let camera := (cameraActions p (mount wrapper s.anchor).1 (mount wrapper s.anchor).2).map
      Action.toValue
    let weather := (Weather.overlay p s.issued (mount wrapper s.anchor).1
      (mount wrapper s.anchor).2).map Action.toValue
    (finish p wrapper s).actions =
        wrapperActions wrapper ++ s.parts.flatMap (·.actions) ++ camera ++ weather ∧
      (finish p wrapper s).steps =
        s.parts ++ cameraSteps (wrapperActions wrapper) camera ++ weatherSteps p weather := by
  cases wrapper with
  | some w =>
      cases hp : p.camera <;> cases hs : s.anchor <;>
        simp [finish, mount, hp, hs, cameraActions, cameraSteps, weatherSteps]
  | none =>
      cases hp : p.camera <;> cases hs : s.anchor <;>
        simp [finish, mount, hp, hs, cameraActions, cameraSteps, weatherSteps]

/-- A composition consists of the fragments, and of the wrapper, the camera and the weather. -/
theorem exists_contents {p : Plan α} {fs : List (Fragment α)} {n : Nat} {c : Composition α}
    (h : compose p fs n = .ok c) :
    ∃ k : Contents p fs n c,
      c.actions = k.wrapping ++ k.blocks.flatten ++ k.camera ++ k.weather ∧
      c.steps = List.zipWith partStep fs k.blocks ++ cameraSteps k.wrapping k.camera
        ++ weatherSteps p k.weather := by
  obtain ⟨wrapped, s, hwrapped, -, hjoin, -, rfl⟩ := compose_eq_ok_iff.1 h
  obtain ⟨blocks, hblocks, hparts⟩ := arranged_of_joinAll rfl hjoin
  obtain ⟨hactions, hsteps⟩ := finish_mount p (wrapperId? wrapped n) s
  have hparts : s.parts = List.zipWith partStep fs blocks := by simpa using hparts
  have hflat : s.parts.flatMap (·.actions) = blocks.flatten := by
    rw [hparts, flatMap_partStep (length_of_arranged hblocks)]
  refine ⟨⟨wrapped, s.anchor, blocks, s.issued, hwrapped, hblocks, rfl, rfl⟩, ?_, ?_⟩
  · rw [hactions, hflat]
    rfl
  · rw [hsteps, hparts]
    rfl

/-- Composing keeps every fragment as one block, in order, after the wrapper and before camera and
weather; each block has its step, and the steps hold the actions of the whole, in the same order
unless there is a wrapper.  Fragments that can be joined are composed whenever there are numbers
enough. -/
theorem compose_contents (p : Plan α) (fs : List (Fragment α)) (n : Nat) :
    ((∀ f ∈ fs, Joinable f) → lastNumber (n + 1) fs + 17 < Placeholder.ceiling →
      ∃ c, compose p fs n = .ok c) ∧
    ∀ c, compose p fs n = .ok c → ∃ k : Contents p fs n c,
      k.blocks.length = fs.length ∧
      c.actions = k.wrapping ++ k.blocks.flatten ++ k.camera ++ k.weather ∧
      c.steps = List.zipWith partStep fs k.blocks ++ cameraSteps k.wrapping k.camera
        ++ weatherSteps p k.weather ∧
      (c.steps.flatMap (·.actions)).Perm c.actions ∧
      (k.wrapped = false → c.steps.flatMap (·.actions) = c.actions) := by
  refine ⟨fun hjoin hroom => compose_returns p hjoin hroom, fun c hc => ?_⟩
  obtain ⟨k, hactions, hsteps⟩ := exists_contents hc
  have hlength := length_of_arranged k.arranged
  refine ⟨k, hlength, hactions, hsteps, perm_of_compose hc, fun hplain => ?_⟩
  have hwrapping : k.wrapping = [] := by
    rw [Contents.wrapping, hplain]
    rfl
  have hcamera : (cameraSteps [] k.camera).flatMap (·.actions) = k.camera := by
    cases k.camera <;> simp [cameraSteps]
  have hweather : (weatherSteps p k.weather).flatMap (·.actions) = k.weather := by
    cases k.weather <;> simp [weatherSteps]
  rw [hactions, hsteps, hwrapping, List.flatMap_append, List.flatMap_append,
    flatMap_partStep hlength, hcamera, hweather, List.nil_append]

theorem lastNumber_moving : lastNumber 1 [moving (.text "x")] = 2 := by
  have hpeak : peakOf (moving (.text "x")) = 1 := by
    rw [peakOf, itemRuns_moving "x" (Placeholder.textRuns_of_not_mem_brace (by decide))]
    simp [peak]
  rw [lastNumber, lastNumber, hpeak]

/-- A group that moves by itself is composed under a wrapper; its step and those of camera and
weather hold what the whole holds. -/
theorem compose_contents_moving :
    ((∀ f ∈ [moving (.text "x")], Joinable f) ∧
      lastNumber (0 + 1) [moving (.text "x")] + 17 < Placeholder.ceiling) ∧
    ∃ c, compose rainy [moving (.text "x")] 0 = .ok c ∧
      ∃ k : Contents rainy [moving (.text "x")] 0 c, k.wrapped = true ∧ k.blocks.length = 1 ∧
        (c.steps.flatMap (·.actions)).Perm c.actions := by
  have hjoin : ∀ f ∈ [moving (.text "x")], Joinable f := by
    intro f hf
    rw [List.mem_singleton.1 hf]
    exact joinable_moving
  have hroom : lastNumber (0 + 1) [moving (.text "x")] + 17 < Placeholder.ceiling := by
    have hceiling := Placeholder.thousand_le_ceiling
    rw [Nat.zero_add, lastNumber_moving]
    omega
  obtain ⟨hreturns, hgood⟩ := compose_contents rainy [moving (.text "x")] 0
  obtain ⟨c, hc⟩ := hreturns hjoin hroom
  obtain ⟨k, hlength, -, -, hperm, -⟩ := hgood c hc
  have hwrapped : needsWrapper rainy [moving (.text "x")] = .ok true := rfl
  exact ⟨⟨hjoin, hroom⟩, c, hc, k, Except.ok.inj (k.needsWrapper_eq.symm.trans hwrapped),
    hlength, hperm⟩

/-- A group whose place is not a number. -/
def placeless : Fragment Rat where
  summary := ""
  actions := [(Action.group (Placeholder.id 1)).toValue]
  root := some (Placeholder.id 1)
  parts := [("base_x", .null)]

/-- A root that stands nowhere stops the composition: there are no actions at all, though the number
of the root is taken. -/
theorem compose_placeless :
    compose { rainy with camera := false, weather := .none } [placeless] 0 =
      .error (.notANumber .null, 1) := by
  have hruns : itemRuns placeless.actions = [Decimal.digits 1] := by
    have hadd : Placeholder.textRuns ActionName.addElement.text = [] :=
      Placeholder.textRuns_of_not_mem_brace (by decide)
    have hkind : Placeholder.textRuns ElementKind.group.name = [] :=
      Placeholder.textRuns_of_not_mem_brace (by decide)
    simp [placeless, itemRuns, Placeholder.runs, Placeholder.fieldRuns, Action.group,
      Action.toValue, Action.wire, Fields.setAll, Parent.toFields, hadd, hkind]
  have hone : (Decimal.digits 1).length ≤ Fault.digitLimit := by decide
  have hpeak : peak (itemRuns placeless.actions) = 1 := by
    rw [hruns]
    simp [peak]
  have hhighest : highestItem placeless.actions = .ok 1 :=
    Placeholder.highestItem_eq_ok_iff.2 ⟨by simp [hruns, hone], hpeak.symm⟩
  have hroot : placeless.root? = some (Placeholder.id 1) := by decide
  have horigin : originOf placeless = .error (.notANumber .null) := rfl
  have hjoin : join none { issued := 0 } placeless = .error (.notANumber .null, 1) := by
    simp [join, shifted, hhighest, anchorAfter, hroot, horigin]
  have hplain : needsWrapper { rainy with camera := false, weather := .none } [placeless] =
      .ok false := rfl
  have hfirst : Placeholder.supply 0 0 = .ok () := Placeholder.supply_eq_ok_iff.2 (by omega)
  simp [compose, hplain, start, joinAll, hjoin, hfirst]

end Storyboard.Composition
