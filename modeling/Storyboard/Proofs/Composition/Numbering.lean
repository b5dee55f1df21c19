import Mathlib.Data.List.Forall2
import Storyboard.Proofs.Composition.Composable
import Storyboard.Scalar.Exact
/-!
# The numbers of a composition

Fragments number their elements from one.  Once they are composed, the ids of all new elements
rise in the order of emission, and the numbers of different fragments, of the wrapper and of the
weather lie in ranges of their own, so that no reference is taken for another element.
-/

namespace Storyboard.Composition

open Placeholder (wholeNumber? raisedText raisedItems occurring itemRuns fieldRuns textRuns runs
  valueOf peak Readable Movable)

variable {α : Type}

/-- Ids that are placeholders with rising numbers, above `low` and up to `high`. -/
def RisesWithin (low high : Nat) (ids : List String) : Prop :=
  ∃ ks : List Nat, ids.map wholeNumber? = ks.map some ∧ ks.Pairwise (· < ·) ∧
    ∀ k ∈ ks, low < k ∧ k ≤ high

theorem risesWithin_nil (low high : Nat) : RisesWithin low high [] :=
  ⟨[], rfl, List.Pairwise.nil, by simp⟩

theorem risesWithin_append {low mid high : Nat} {ids ids' : List String}
    (hlow : low ≤ mid) (hhigh : mid ≤ high) (h : RisesWithin low mid ids)
    (h' : RisesWithin mid high ids') : RisesWithin low high (ids ++ ids') := by
  obtain ⟨ks, hids, hrise, hin⟩ := h
  obtain ⟨ks', hids', hrise', hin'⟩ := h'
  refine ⟨ks ++ ks', by rw [List.map_append, List.map_append, hids, hids'], ?_, ?_⟩
  · refine List.pairwise_append.2 ⟨hrise, hrise', fun a ha b hb => ?_⟩
    have ha := hin a ha
    have hb := hin' b hb
    omega
  · intro k hk
    rcases List.mem_append.1 hk with hk | hk
    · have := hin k hk
      omega
    · have := hin' k hk
      omega

theorem risesWithin_of_range (n count : Nat) :
    RisesWithin n (n + count) ((List.range' (n + 1) count).map Placeholder.id) := by
  refine ⟨List.range' (n + 1) count, ?_, List.pairwise_lt_range', fun k hk => ?_⟩
  · rw [List.map_map]
    congr 1
    funext k
    exact Placeholder.wholeNumber?_id k
  · have := List.mem_range'_1.1 hk
    omega

theorem wholeNumber?_movedText (k : Nat) (s : String) :
    wholeNumber? (movedText k s) = (wholeNumber? s).map (· + k) := by
  unfold movedText
  split
  · rename_i hk
    simp [hk]
  · exact Placeholder.wholeNumber?_raisedText k s

theorem risesWithin_movedText {low high : Nat} {ids : List String} (k : Nat)
    (h : RisesWithin low high ids) :
    RisesWithin (low + k) (high + k) (ids.map (movedText k)) := by
  obtain ⟨ks, hids, hrise, hin⟩ := h
  refine ⟨ks.map (· + k), ?_, ?_, fun m hm => ?_⟩
  · have hmap := congrArg (List.map (Option.map (· + k))) hids
    rw [List.map_map, List.map_map] at hmap
    rw [List.map_map, List.map_map]
    calc ids.map (wholeNumber? ∘ movedText k)
        = ids.map (Option.map (· + k) ∘ wholeNumber?) :=
          List.map_congr_left fun s _ => wholeNumber?_movedText k s
      _ = ks.map (Option.map (· + k) ∘ some) := hmap
  · exact List.pairwise_map.2 (hrise.imp fun h => by omega)
  · obtain ⟨j, hj, rfl⟩ := List.mem_map.1 hm
    have := hin j hj
    omega

/-! ## Where the placeholders of an action are -/

theorem mem_fieldRuns_of_get? {fields : Fields α} {name : String} {v : Value α}
    (h : Fields.get? fields name = some v) {ds : List Char} (hds : ds ∈ runs v) :
    ds ∈ fieldRuns fields := by
  induction fields with
  | nil => simp at h
  | cons head rest ih =>
      obtain ⟨key, old⟩ := head
      by_cases hkey : key = name
      · simp only [Fields.get?_cons, hkey, if_true, Option.some.injEq] at h
        subst h
        exact List.mem_append_left _ hds
      · simp only [Fields.get?_cons, hkey, if_false] at h
        exact List.mem_append_right _ (ih h)

theorem mem_runs_of_field? {v w : Value α} {name : String} (h : v.field? name = some w)
    {ds : List Char} (hds : ds ∈ runs w) : ds ∈ runs v := by
  cases v with
  | object fields => exact mem_fieldRuns_of_get? h hds
  | _ => simp [Value.field?] at h

theorem mem_runs_of_addedId? {a : Value α} {s : String} (h : addedId? a = some s)
    {ds : List Char} (hds : ds ∈ textRuns s) : ds ∈ runs a := by
  obtain ⟨-, payload, hpayload, props, hprops, hid⟩ := addedId?_eq_some_iff.1 h
  have hinProps : ds ∈ runs (.object props) := mem_fieldRuns_of_get? (v := .text s) hid hds
  have hinPayload : ds ∈ runs (.object payload) := mem_fieldRuns_of_get? hprops hinProps
  exact mem_runs_of_field? hpayload hinPayload

theorem mem_itemRuns {as : List (Value α)} {a : Value α} (ha : a ∈ as) {ds : List Char}
    (hds : ds ∈ runs a) : ds ∈ itemRuns as := by
  induction as with
  | nil => simp at ha
  | cons b bs ih =>
      rcases List.mem_cons.1 ha with rfl | ha
      · exact List.mem_append_left _ hds
      · exact List.mem_append_right _ (ih ha)

theorem exists_mem_of_mem_itemRuns {as : List (Value α)} {ds : List Char}
    (h : ds ∈ itemRuns as) : ∃ a ∈ as, ds ∈ runs a := by
  induction as with
  | nil => cases h
  | cons b bs ih =>
      rcases List.mem_append.1 h with h | h
      · exact ⟨b, List.mem_cons_self, h⟩
      · obtain ⟨a, ha, h⟩ := ih h
        exact ⟨a, List.mem_cons_of_mem b ha, h⟩

/-- The number of an id that a fragment adds is at most its highest number. -/
theorem le_peakOf_of_mem_addedIds {f : Fragment α} {s : String} (hs : s ∈ addedIds f.actions)
    {k : Nat} (hk : wholeNumber? s = some k) : k ≤ peakOf f := by
  obtain ⟨a, ha, hadded⟩ := List.mem_filterMap.1 hs
  obtain ⟨ds, hds, rfl⟩ := Placeholder.wholeNumber?_eq_some_mem hk
  have hmem : ds ∈ textRuns s := by simp [hds]
  exact Placeholder.valueOf_le_peak (mem_itemRuns ha (mem_runs_of_addedId? hadded hmem))

theorem risesWithin_peakOf {f : Fragment α} {high : Nat}
    (h : RisesWithin 0 high (addedIds f.actions)) :
    RisesWithin 0 (peakOf f) (addedIds f.actions) := by
  obtain ⟨ks, hids, hrise, hin⟩ := h
  refine ⟨ks, hids, hrise, fun k hk => ⟨(hin k hk).1, ?_⟩⟩
  have hsome : some k ∈ (addedIds f.actions).map wholeNumber? := by
    rw [hids]
    exact List.mem_map_of_mem hk
  obtain ⟨s, hs, hnumber⟩ := List.mem_map.1 hsome
  exact le_peakOf_of_mem_addedIds hs hnumber

theorem addedIds_moved (k : Nat) (as : List (Value α)) :
    addedIds (moved k as) = (addedIds as).map (movedText k) := by
  unfold moved movedText
  split
  · simp
  · exact addedIds_raisedItems k as

theorem addedIds_emitted (wrapper : Option String) (anchored : Bool) (k : Nat)
    (f : Fragment α) :
    addedIds (emitted wrapper anchored k f) = (addedIds f.actions).map (movedText k) := by
  unfold emitted
  split
  · rw [addedIds_reparent, addedIds_moved]
  · exact addedIds_moved k f.actions

theorem risesWithin_emittedAll {wrapper : Option String} {anchored : Bool} {n : Nat}
    {fs : List (Fragment α)} (hfs : ∀ f ∈ fs, ∃ high, RisesWithin 0 high (addedIds f.actions)) :
    RisesWithin n (lastNumber n fs) (addedIds (emittedAll wrapper anchored n fs)) := by
  induction fs generalizing n anchored with
  | nil => exact risesWithin_nil _ _
  | cons f fs ih =>
      obtain ⟨high, hf⟩ := hfs f (by simp)
      have hfirst := risesWithin_movedText n (risesWithin_peakOf hf)
      rw [Nat.zero_add, Nat.add_comm] at hfirst
      rw [emittedAll, addedIds_append, addedIds_emitted]
      exact risesWithin_append (Nat.le_add_right _ _) (le_lastNumber _ _) hfirst
        (ih fun g hg => hfs g (by simp [hg]))

/-! ## Ranges -/

/-- Rows of numbers, each within a range that ends before the next ones begin. -/
def Apart (rows : List (List Nat)) : Prop :=
  ∃ ranges : List (Nat × Nat),
    List.Forall₂ (fun row range => ∀ k ∈ row, range.1 < k ∧ k ≤ range.2) rows ranges ∧
      ranges.Pairwise fun range later => range.2 ≤ later.1

/-- The numbers in a fragment once it is moved on, less those that were zero before. -/
def numbersOf (part : Nat × Fragment α) : List Nat :=
  (occurring (moved part.1 part.2.actions)).filter (part.1 < ·)

theorem occurring_moved (k : Nat) (as : List (Value α)) :
    occurring (moved k as) = (occurring as).map (· + k) := by
  unfold moved
  split
  · rename_i hk
    simp [hk]
  · exact Placeholder.occurring_raisedItems k as

theorem mem_numbersOf {k m : Nat} {f : Fragment α} (h : m ∈ numbersOf (k, f)) :
    k < m ∧ m ≤ k + peakOf f := by
  obtain ⟨hm, hlow⟩ := List.mem_filter.1 h
  rw [occurring_moved] at hm
  obtain ⟨j, hj, rfl⟩ := List.mem_map.1 hm
  have hpeak : j ≤ peakOf f := Placeholder.le_peak_of_mem_occurring hj
  have hlow : k < j + k := of_decide_eq_true hlow
  omega

theorem offsets_within {n k : Nat} {f : Fragment α} {fs : List (Fragment α)}
    (h : (k, f) ∈ offsets n fs) : n ≤ k ∧ k + peakOf f ≤ lastNumber n fs := by
  induction fs generalizing n with
  | nil => simp [offsets] at h
  | cons g gs ih =>
      rcases List.mem_cons.1 h with heq | hrest
      · simp only [Prod.mk.injEq] at heq
        obtain ⟨rfl, rfl⟩ := heq
        exact ⟨Nat.le_refl _, le_lastNumber _ _⟩
      · have := ih hrest
        rw [lastNumber]
        omega

theorem offsets_pairwise (n : Nat) (fs : List (Fragment α)) :
    (offsets n fs).Pairwise fun part later => part.1 + peakOf part.2 ≤ later.1 := by
  induction fs generalizing n with
  | nil => exact List.Pairwise.nil
  | cons f fs ih =>
      refine List.pairwise_cons.2 ⟨fun part hpart => ?_, ih _⟩
      exact (offsets_within hpart).1

namespace Layout

variable [Scalar α] {p : Plan α} {fs : List (Fragment α)} {n : Nat} {c : Composition α}

/-- The actions that the weather of a composition consists of. -/
def weather (l : Layout p fs n c) : List (Value α) :=
  (Weather.overlay p l.last
    ((wrapperId? l.wrapped n).or (anchorId? (firstNumber l.wrapped n) fs)) l.origin).map
      Action.toValue

/-- The numbers of the parts of a composition: in the action that adds the wrapper, in each
fragment moved on, and of the elements that the weather adds. -/
def numbers (l : Layout p fs n c) : List (List Nat) :=
  occurring (wrapperActions (α := α) (wrapperId? l.wrapped n))
    :: (offsets (firstNumber l.wrapped n) fs).map numbersOf
    ++ [(addedIds l.weather).filterMap wholeNumber?]

theorem addedIds_weather (l : Layout p fs n c) :
    addedIds l.weather =
      (List.range' (l.last + 1) (c.issued - l.last)).map Placeholder.id := by
  rw [weather, addedIds_map_toValue, l.issued_eq]
  exact adds_overlay p l.last _ l.origin

theorem last_le_issued (l : Layout p fs n c) : l.last ≤ c.issued := by
  rw [l.issued_eq]
  exact (le_issued p l.last).1

theorem firstNumber_le_last (l : Layout p fs n c) : firstNumber l.wrapped n ≤ l.last := by
  rw [l.last_eq]
  exact le_lastNumber _ _

theorem risesWithin_wrapper (l : Layout p fs n c) :
    RisesWithin n (firstNumber l.wrapped n)
      (addedIds (wrapperActions (α := α) (wrapperId? l.wrapped n))) := by
  rw [addedIds_wrapperActions]
  cases l.wrapped with
  | false => exact risesWithin_nil _ _
  | true => exact risesWithin_of_range n 1

theorem risesWithin_weather (l : Layout p fs n c) :
    RisesWithin l.last c.issued (addedIds l.weather) := by
  have hrange := risesWithin_of_range l.last (c.issued - l.last)
  have hcount : l.last + (c.issued - l.last) = c.issued := by
    have := l.last_le_issued
    omega
  rw [hcount] at hrange
  rw [l.addedIds_weather]
  exact hrange

theorem risesWithin (l : Layout p fs n c)
    (hfs : ∀ f ∈ fs, ∃ high, RisesWithin 0 high (addedIds f.actions)) :
    RisesWithin n c.issued (addedIds c.actions) := by
  have hblocks : RisesWithin (firstNumber l.wrapped n) l.last
      (addedIds (emittedAll (wrapperId? l.wrapped n) false (firstNumber l.wrapped n) fs)) := by
    rw [l.last_eq]
    exact risesWithin_emittedAll hfs
  have hjoined := risesWithin_append (le_firstNumber _ n) l.firstNumber_le_last l.risesWithin_wrapper
    hblocks
  rw [l.actions_eq, addedIds_append, addedIds_append, addedIds_append, addedIds_cameraActions,
    List.append_nil]
  exact risesWithin_append (Nat.le_trans (le_firstNumber _ n) l.firstNumber_le_last)
    l.last_le_issued hjoined l.risesWithin_weather

theorem occurring_wrapper (l : Layout p fs n c) :
    ∀ k ∈ occurring (wrapperActions (α := α) (wrapperId? l.wrapped n)),
      n < k ∧ k ≤ firstNumber l.wrapped n := by
  intro k hk
  cases hw : l.wrapped with
  | false => simp [hw, wrapperId?, wrapperActions, occurring, itemRuns] at hk
  | true =>
      -- The id of the group is the only placeholder in its action.
      have hname : textRuns (ActionName.addElement).text = [] :=
        Placeholder.textRuns_of_not_mem_brace (by decide)
      have hkind : textRuns ElementKind.group.name = [] :=
        Placeholder.textRuns_of_not_mem_brace (by decide)
      have hone : k = n + 1 := by
        simpa [hw, wrapperId?, wrapperActions, occurring, itemRuns, runs, fieldRuns,
          Action.group, Action.toValue, Action.wire, Fields.setAll, Parent.toFields, hname,
          hkind] using hk
      simp [firstNumber, hone]

theorem weather_within (l : Layout p fs n c) :
    ∀ k ∈ (addedIds l.weather).filterMap wholeNumber?, l.last < k ∧ k ≤ c.issued := by
  intro k hk
  rw [l.addedIds_weather, List.filterMap_map] at hk
  obtain ⟨j, hj, hnumber⟩ := List.mem_filterMap.1 hk
  rw [Function.comp, Placeholder.wholeNumber?_id, Option.some.injEq] at hnumber
  have := List.mem_range'_1.1 hj
  omega

theorem fragments_within (l : Layout p fs n c) :
    ∀ part ∈ offsets (firstNumber l.wrapped n) fs,
      firstNumber l.wrapped n ≤ part.1 ∧ part.1 + peakOf part.2 ≤ l.last := by
  intro part hpart
  rw [l.last_eq]
  exact offsets_within hpart

theorem apart (l : Layout p fs n c) : Apart l.numbers := by
  have hwithin := l.fragments_within
  refine ⟨(n, firstNumber l.wrapped n)
    :: (offsets (firstNumber l.wrapped n) fs).map (fun part => (part.1, part.1 + peakOf part.2))
    ++ [(l.last, c.issued)], ?_, ?_⟩
  · refine List.rel_append (List.Forall₂.cons l.occurring_wrapper ?_)
      (List.Forall₂.cons l.weather_within List.Forall₂.nil)
    rw [List.forall₂_map_left_iff, List.forall₂_map_right_iff, List.forall₂_same]
    exact fun part _ k hk => mem_numbersOf hk
  · refine List.pairwise_append.2 ⟨List.pairwise_cons.2 ⟨?_, ?_⟩, by simp, ?_⟩
    · intro range hrange
      obtain ⟨part, hpart, rfl⟩ := List.mem_map.1 hrange
      exact (hwithin part hpart).1
    · exact List.pairwise_map.2 (offsets_pairwise _ _)
    · intro range hrange later hlater
      rw [List.mem_singleton.1 hlater]
      rcases List.mem_cons.1 hrange with rfl | hrange
      · exact l.firstNumber_le_last
      · obtain ⟨part, hpart, rfl⟩ := List.mem_map.1 hrange
        exact (hwithin part hpart).2

end Layout

/-- Composing fragments whose ids rise numbers all new elements in the order of emission, above
the start and up to the last number given out, and keeps the numbers of the parts apart.
Fragments that can be joined are composed whenever there are numbers enough. -/
theorem compose_numbers [Scalar α] (p : Plan α) (fs : List (Fragment α)) (n : Nat)
    (hfs : ∀ f ∈ fs, ∃ high, RisesWithin 0 high (addedIds f.actions)) :
    ((∀ f ∈ fs, Joinable f) → lastNumber (n + 1) fs + 17 < Placeholder.ceiling →
      ∃ c, compose p fs n = .ok c) ∧
    ∀ c, compose p fs n = .ok c →
      RisesWithin n c.issued (addedIds c.actions) ∧
        ∃ l : Layout p fs n c, Apart l.numbers := by
  refine ⟨fun hjoin hroom => compose_returns p hjoin hroom, fun c hc => ?_⟩
  obtain ⟨l⟩ := compose_layout hc
  exact ⟨l.risesWithin hfs, l, l.apart⟩

/-- A plan with a camera and rain. -/
def rainy : Plan Rat where
  prompt := ""
  features := {
    text := "", raw := "", mentions := fun _ => false, colour := none, opacity := none
    strokeWidth := none, count := 1, content := none, fontSize := none, duration := none
    playbackSpeed := none }
  archetype := .basic
  wantsCreate := false
  wantsScene := false
  wantsCharacter := false
  wantsPath := false
  wantsPhoto := false
  wantsLayers := false
  motion := .none
  style := .default
  layout := .row
  camera := true
  weather := .rain
  duration := 4
  beats := .ofDuration 4
  palette := .generic
  board := .standard
  selected := none
  existing := []

/-- A group with a keyframe of a property. -/
def moving (property : Value Rat) : Fragment Rat where
  summary := ""
  actions := [
    (Action.group (Placeholder.id 1)).toValue,
    Action.wire .addKeyframe (.object [("elementId", .text (Placeholder.id 1)),
      ("property", property), ("time", .int 0), ("value", .int 0)])]
  root := some (Placeholder.id 1)

theorem risesWithin_moving (property : Value Rat) :
    RisesWithin 0 1 (addedIds (moving property).actions) := by
  have hgroup : addedId? (Action.group (Placeholder.id 1) : Action Rat).toValue =
      some (Placeholder.id 1) := addedId?_toValue _
  have hframe : ∀ payload : Value Rat, addedId? (Action.wire .addKeyframe payload) = none := by
    intro payload
    simp [addedId?]
  rw [moving, addedIds, List.filterMap_cons_some hgroup, List.filterMap_cons_none (hframe _)]
  exact risesWithin_of_range 0 1

/-- A property that is no text stops the composition, whatever the ids. -/
theorem compose_unsearchable :
    (∀ f ∈ [moving (.list [])], ∃ high, RisesWithin 0 high (addedIds f.actions)) ∧
      compose rainy [moving (.list [])] 0 = .error (.notHashable .list, 0) := by
  refine ⟨fun f hf => ?_, rfl⟩
  rw [List.mem_singleton.1 hf]
  exact ⟨1, risesWithin_moving _⟩

theorem itemRuns_moving (s : String) (h : textRuns s = []) :
    itemRuns (moving (.text s)).actions = [Decimal.digits 1, Decimal.digits 1] := by
  have hadd : textRuns ActionName.addElement.text = [] :=
    Placeholder.textRuns_of_not_mem_brace (by decide)
  have hframe : textRuns ActionName.addKeyframe.text = [] :=
    Placeholder.textRuns_of_not_mem_brace (by decide)
  have hkind : textRuns ElementKind.group.name = [] :=
    Placeholder.textRuns_of_not_mem_brace (by decide)
  simp [moving, itemRuns, runs, fieldRuns, Action.group, Action.toValue, Action.wire,
    Fields.setAll, Parent.toFields, hadd, hframe, hkind, h]

theorem joinable_moving : Joinable (moving (.text "x")) := by
  have hx : textRuns "x" = [] := Placeholder.textRuns_of_not_mem_brace (by decide)
  have hruns := itemRuns_moving "x" hx
  have hone : (Decimal.digits 1).length ≤ Fault.digitLimit := by decide
  refine ⟨?_, ?_, ?_, ⟨_, rfl⟩⟩
  · rw [hruns]
    simp [hone]
  · intro a ha v hv
    simp only [moving, List.mem_cons, List.not_mem_nil, or_false] at ha
    rcases ha with rfl | rfl
    · simp [Action.group, Action.toValue, Parent.toFields] at hv
    · simp only [payloadOf_wire, Fields.get?_cons, if_false, if_true,
        Option.some.injEq, String.reduceEq] at hv
      rw [← hv]
      rfl
  · intro root hroot
    have hid : (moving (.text "x")).root? = some (Placeholder.id 1) := by decide
    rw [hid, Option.some.injEq] at hroot
    rw [← hroot, Placeholder.textRuns_id, peakOf, hruns]
    simp [hone, peak]

/-- Two joined groups keep their numbers apart. -/
theorem compose_numbers_rainy :
    (∀ f ∈ [moving (.text "x"), moving (.text "x")],
        ∃ high, RisesWithin 0 high (addedIds f.actions)) ∧
      ∃ c, compose rainy [moving (.text "x"), moving (.text "x")] 0 = .ok c ∧
        RisesWithin 0 c.issued (addedIds c.actions) := by
  have hrises : ∀ f ∈ [moving (.text "x"), moving (.text "x")],
      ∃ high, RisesWithin 0 high (addedIds f.actions) := by
    intro f hf
    simp only [List.mem_cons, List.not_mem_nil, or_false, or_self] at hf
    rw [hf]
    exact ⟨1, risesWithin_moving _⟩
  have hjoin : ∀ f ∈ [moving (.text "x"), moving (.text "x")], Joinable f := by
    intro f hf
    simp only [List.mem_cons, List.not_mem_nil, or_false, or_self] at hf
    rw [hf]
    exact joinable_moving
  have hroom : lastNumber (0 + 1) [moving (.text "x"), moving (.text "x")] + 17 <
      Placeholder.ceiling := by
    have hceiling := Placeholder.thousand_le_ceiling
    have hpeak : peakOf (moving (.text "x")) = 1 := by
      rw [peakOf, itemRuns_moving "x" (Placeholder.textRuns_of_not_mem_brace (by decide))]
      simp [peak]
    simp only [lastNumber, hpeak]
    omega
  obtain ⟨hreturns, hgood⟩ := compose_numbers rainy _ 0 hrises
  obtain ⟨c, hc⟩ := hreturns hjoin hroom
  exact ⟨hrises, c, hc, (hgood c hc).1⟩

end Storyboard.Composition
