import Mathlib.Data.String.Basic
import Storyboard.Proofs.Contract.Acceptance
/-!
# Sorting breaches by their places

The place of a breach is a path into the value that is checked.  Where two such paths part, both go
on into the same list or into the same object, so an index is never compared with a name: breaches
can always be sorted by their places, and a value is either accepted or refused with some breach.
-/

namespace Storyboard

/-! ## Paths into values -/

namespace Value

variable {α : Type}

/-- The part of a value that a path leads to. -/
def at? : Value α → List Step → Option (Value α)
  | v, [] => some v
  | v, .name s :: rest => (v.field? s).bind fun w => at? w rest
  | v, .index n :: rest => (v.items?.bind (·[n]?)).bind fun w => at? w rest

theorem at?_append (v : Value α) (p q : List Step) :
    v.at? (p ++ q) = (v.at? p).bind fun w => w.at? q := by
  induction p generalizing v with
  | nil => rfl
  | cons step rest ih => cases step <;> simp [at?, ih, Option.bind_assoc]

/-- Two steps into the same value: names of fields that an object has, or indices of items that a
list has. -/
inductive Beside : Value α → Step → Step → Prop
  | names {fields : Fields α} {s t : String} (hs : (Fields.get? fields s).isSome = true)
    (ht : (Fields.get? fields t).isSome = true) : Beside (.object fields) (.name s) (.name t)
  | indices {items : List (Value α)} {m n : Nat} (hm : m < items.length)
    (hn : n < items.length) : Beside (.list items) (.index m) (.index n)

/-- Where two paths part, both go on into the same object or the same list. -/
def Parting (v : Value α) (p q : List Step) : Prop :=
  ∀ front s t p' q', p = front ++ s :: p' → q = front ++ t :: q' → s ≠ t →
    ∃ w, v.at? front = some w ∧ w.Beside s t

/-- A step that can be taken says what the value is. -/
theorem cases_of_at? {v w : Value α} {s : Step} {rest : List Step}
    (h : v.at? (s :: rest) = some w) :
    (∃ fields name, v = .object fields ∧ s = .name name ∧
      (Fields.get? fields name).isSome = true) ∨
    ∃ items n, v = .list items ∧ s = .index n ∧ n < items.length := by
  cases s with
  | name name =>
      obtain ⟨field, hfield, -⟩ := Option.bind_eq_some_iff.1 h
      cases v with
      | object fields => exact .inl ⟨fields, name, rfl, rfl, Option.isSome_iff_exists.2 ⟨_, hfield⟩⟩
      | _ => cases hfield
  | index n =>
      obtain ⟨item, hitem, -⟩ := Option.bind_eq_some_iff.1 h
      obtain ⟨items, hitems, hitem⟩ := Option.bind_eq_some_iff.1 hitem
      cases v with
      | list vs =>
          obtain rfl := Option.some.inj hitems
          exact .inr ⟨vs, n, rfl, rfl, (List.getElem?_eq_some_iff.1 hitem).1⟩
      | _ => cases hitems

theorem beside_of_at? {v w w' : Value α} {s t : Step} {p q : List Step}
    (hs : v.at? (s :: p) = some w) (ht : v.at? (t :: q) = some w') : v.Beside s t := by
  rcases cases_of_at? hs with ⟨fields, name, rfl, rfl, hname⟩ | ⟨items, n, rfl, rfl, hn⟩
  · rcases cases_of_at? ht with ⟨fields', other, heq, rfl, hother⟩ | ⟨_, _, heq, -⟩
    · obtain rfl := Value.object.inj heq
      exact .names hname hother
    · cases heq
  · rcases cases_of_at? ht with ⟨_, _, heq, -⟩ | ⟨items', m, heq, rfl, hm⟩
    · cases heq
    · obtain rfl := Value.list.inj heq
      exact .indices hn hm

theorem parting_of_at? {v w w' : Value α} {p q : List Step} (hp : v.at? p = some w)
    (hq : v.at? q = some w') : v.Parting p q := by
  rintro front s t p' q' rfl rfl -
  rw [at?_append] at hp hq
  obtain ⟨u, hu, hs⟩ := Option.bind_eq_some_iff.1 hp
  obtain ⟨u', hu', ht⟩ := Option.bind_eq_some_iff.1 hq
  obtain rfl := Option.some.inj (hu.symm.trans hu')
  exact ⟨u, hu, beside_of_at? hs ht⟩

end Value

/-! ## Where breaches are -/

namespace Schema

variable {α : Type} [Scalar α]

omit [Scalar α] in
theorem at?_under {v w : Value α} {step : Step} {b : Breach α}
    (hstep : v.at? [step] = some w) (h : w.at? b.path = some b.value) :
    v.at? (b.under step).path = some (b.under step).value := by
  show v.at? ([step] ++ b.path) = some b.value
  rw [Value.at?_append, hstep]
  exact h

mutual

/-- A breach tells where in the value the part is that breaks the rule. -/
theorem at?_of_mem_breaches (s : Schema α) (v : Value α) :
    ∀ b ∈ s.breaches v, v.at? b.path = some b.value := by
  intro b hb
  have hhere : ∀ {broken kind}, b ∈ here v broken kind → v.at? b.path = some b.value := by
    intro broken kind h
    unfold here at h
    split at h
    · rw [List.mem_singleton.1 h]
      rfl
    · cases h
  cases s with
  | all rules => exact at?_of_mem_breachesOfAll rules v b hb
  | required names =>
      cases v with
      | object fields =>
          obtain ⟨name, -, rfl⟩ := List.mem_map.1 hb
          rfl
      | _ => cases hb
  | properties fields => exact at?_of_mem_breachesOfFields fields v b hb
  | items item =>
      cases v with
      | list vs =>
          obtain ⟨⟨w, k⟩, hw, hb⟩ := List.mem_flatMap.1 hb
          obtain ⟨inner, hinner, rfl⟩ := List.mem_map.1 hb
          have hitem : vs[k]? = some w := List.mk_mem_zipIdx_iff_getElem?.1 hw
          exact at?_under (by simp [Value.at?, Value.items?, hitem])
            (at?_of_mem_breaches item w inner hinner)
      | _ => cases hb
  | given condition consequence =>
      unfold breaches at hb
      split at hb
      · exact at?_of_mem_breaches consequence v b hb
      · cases hb
  | type _ => exact hhere hb
  | oneOf _ => exact hhere hb
  | nonEmpty => exact hhere hb
  | minimum _ => exact hhere hb
  | above _ => exact hhere hb
  | maximum _ => exact hhere hb

theorem at?_of_mem_breachesOfAll (rules : List (Schema α)) (v : Value α) :
    ∀ b ∈ breachesOfAll rules v, v.at? b.path = some b.value := by
  intro b hb
  cases rules with
  | nil => cases hb
  | cons s rest =>
      rcases List.mem_append.1 hb with hb | hb
      · exact at?_of_mem_breaches s v b hb
      · exact at?_of_mem_breachesOfAll rest v b hb

theorem at?_of_mem_breachesOfFields (fields : List (String × Schema α)) (v : Value α) :
    ∀ b ∈ breachesOfFields fields v, v.at? b.path = some b.value := by
  intro b hb
  cases fields with
  | nil => cases hb
  | cons head rest =>
      obtain ⟨name, s⟩ := head
      rcases List.mem_append.1 hb with hb | hb
      · split at hb
        · rename_i field hfield
          obtain ⟨inner, hinner, rfl⟩ := List.mem_map.1 hb
          exact at?_under (by simp [Value.at?, hfield])
            (at?_of_mem_breaches s field inner hinner)
        · cases hb
      · exact at?_of_mem_breachesOfFields rest v b hb

end

end Schema

/-! ## Comparing paths -/

namespace Step

/-- Whether one step comes before another: names by their characters, indices by size.  A name and
an index cannot be compared. -/
def before? : Step → Step → Option Bool
  | .name s, .name t => some (decide (s < t))
  | .index m, .index n => some (decide (m < n))
  | _, _ => none

/-- Whether one path comes before another: by the first steps that differ, or else by length. -/
def ahead? : List Step → List Step → Option Bool
  | [], [] => some false
  | [], _ :: _ => some true
  | _ :: _, [] => some false
  | s :: p, t :: q => if s = t then ahead? p q else before? s t

example : ahead? [.name "actions", .index 0] [.name "actions", .name "type"] = none := by decide

theorem isSome_ahead? {p q : List Step} (h : ∀ front s t p' q', p = front ++ s :: p' →
    q = front ++ t :: q' → s ≠ t → (before? s t).isSome = true) : (ahead? p q).isSome = true := by
  induction p generalizing q with
  | nil => cases q <;> rfl
  | cons s p ih =>
      cases q with
      | nil => rfl
      | cons t q =>
          unfold ahead?
          split
          · rename_i hsame
            refine ih fun front s' t' p' q' hp hq => h (s :: front) s' t' p' q' ?_ ?_
            · rw [hp, List.cons_append]
            · rw [hq, hsame, List.cons_append]
          · rename_i hdiffer
            exact h [] s t p q rfl rfl hdiffer

theorem isSome_ahead?_of_parting {α : Type} {v : Value α} {p q : List Step}
    (h : v.Parting p q) : (ahead? p q).isSome = true := by
  refine isSome_ahead? fun front s t p' q' hp hq hdiffer => ?_
  obtain ⟨w, -, hbeside⟩ := h front s t p' q' hp hq hdiffer
  cases hbeside <;> rfl

/-- The order of steps that `precedes` goes by; it puts every index before every name. -/
def Below : Step → Step → Prop
  | .name s, .name t => s < t
  | .index m, .index n => m < n
  | .index _, .name _ => True
  | .name _, .index _ => False

theorem below_trichotomy (s t : Step) : s = t ∨ Below s t ∨ Below t s := by
  cases s with
  | name s =>
      cases t with
      | name t => rcases lt_trichotomy s t with h | rfl | h <;> simp [Below, *]
      | index n => exact .inr (.inr trivial)
  | index m =>
      cases t with
      | name t => exact .inr (.inl trivial)
      | index n => rcases lt_trichotomy m n with h | rfl | h <;> simp [Below, *]

theorem Below.trans {s t u : Step} (hst : Below s t) (htu : Below t u) : Below s u := by
  cases s <;> cases t <;> cases u <;> simp only [Below] at *
  · exact lt_trans hst htu
  · exact lt_trans hst htu

theorem Below.ne {s t : Step} (h : Below s t) : s ≠ t := by
  rintro rfl
  cases s <;> exact lt_irrefl _ h

theorem below_of_before? {s t : Step} {r : Bool} (h : before? s t = some r) :
    r = true ↔ Below s t := by
  cases s <;> cases t <;> simp only [before?, Option.some.injEq, reduceCtorEq] at h <;>
    rw [← h, decide_eq_true_eq] <;> rfl

theorem precedes_cons_iff {s t : Step} {p q : List Step} :
    precedes (s :: p) (t :: q) = true ↔ Below s t ∨ (s = t ∧ precedes p q = true) := by
  cases s <;> cases t <;> simp only [precedes, Below]
  · rename_i s t
    by_cases h : s = t
    · simp [h]
    · simp [h]
  · simp
  · simp
  · rename_i m n
    by_cases h : m = n
    · simp [h]
    · simp [h]

theorem precedes_total (p q : List Step) : (precedes p q || precedes q p) = true := by
  rw [Bool.or_eq_true]
  induction p generalizing q with
  | nil => exact .inl rfl
  | cons s p ih =>
      cases q with
      | nil => exact .inr rfl
      | cons t q =>
          rw [precedes_cons_iff, precedes_cons_iff]
          rcases below_trichotomy s t with rfl | h | h
          · exact (ih q).imp (fun h => .inr ⟨rfl, h⟩) (fun h => .inr ⟨rfl, h⟩)
          · exact .inl (.inl h)
          · exact .inr (.inl h)

theorem precedes_trans {p q r : List Step} (hpq : precedes p q = true)
    (hqr : precedes q r = true) : precedes p r = true := by
  induction p generalizing q r with
  | nil => rfl
  | cons s p ih =>
      cases q with
      | nil => cases hpq
      | cons t q =>
          cases r with
          | nil => cases hqr
          | cons u r =>
              rw [precedes_cons_iff] at hpq hqr ⊢
              rcases hpq with hst | ⟨rfl, hpq⟩
              · rcases hqr with htu | ⟨rfl, -⟩
                · exact .inl (hst.trans htu)
                · exact .inl hst
              · exact hqr.imp_right fun h => ⟨h.1, ih hpq h.2⟩

/-- Where paths can be compared, `precedes` is that the second one is not ahead. -/
theorem precedes_of_ahead? {p q : List Step} {r : Bool} (h : ahead? q p = some r) :
    precedes p q = !r := by
  induction p generalizing q with
  | nil =>
      cases q <;> simp only [ahead?, Option.some.injEq] at h <;> rw [← h] <;> rfl
  | cons s p ih =>
      cases q with
      | nil =>
          simp only [ahead?, Option.some.injEq] at h
          rw [← h]
          rfl
      | cons t q =>
          unfold ahead? at h
          rw [Bool.eq_iff_iff, precedes_cons_iff]
          split at h
          · rename_i hsame
            subst hsame
            rw [ih h]
            simp only [true_and, or_iff_right_iff_imp]
            exact fun hbelow => absurd rfl hbelow.ne
          · rename_i hdiffer
            have hbelow := below_of_before? h
            rw [Bool.not_eq_true', ← Bool.not_eq_true, hbelow]
            constructor
            · rintro (hst | ⟨rfl, -⟩)
              · exact fun hts => (hst.trans hts).ne rfl
              · exact absurd rfl hdiffer
            · intro hts
              rcases below_trichotomy s t with rfl | hst | hst
              · exact absurd rfl hdiffer
              · exact .inl hst
              · exact absurd hst hts

end Step

/-! ## Sorting -/

namespace Contract

section

variable {β : Type}

/-- Puts an entry before the first one of a list that is not ahead of it. -/
def place? (ahead? : β → β → Option Bool) (a : β) : List β → Option (List β)
  | [] => some [a]
  | b :: rest => do
    if ← ahead? b a then return b :: (← place? ahead? a rest)
    else return a :: b :: rest

/-- Sorts by a comparison that may fail.  Of two entries neither of which is ahead of the other,
the first stays first. -/
def sort? (ahead? : β → β → Option Bool) : List β → Option (List β)
  | [] => some []
  | a :: rest => do place? ahead? a (← sort? ahead? rest)

variable {ahead? : β → β → Option Bool} {le : β → β → Bool}

theorem place?_append {a : β} {front back : List β} (hfront : ∀ b ∈ front, ahead? b a = some true)
    (hback : ∀ b ∈ back, ahead? b a = some false) :
    place? ahead? a (front ++ back) = some (front ++ a :: back) := by
  induction front with
  | nil =>
      cases back with
      | nil => rfl
      | cons b back => simp [place?, hback b]
  | cons b front ih =>
      obtain ⟨hb, hfront⟩ := List.forall_mem_cons.1 hfront
      simp [place?, hb, ih hfront]

/-- A sort whose comparisons never fail is that of the order they decide. -/
theorem sort?_eq_mergeSort (trans : ∀ a b c, le a b → le b c → le a c)
    (total : ∀ a b, le a b || le b a) {l : List β}
    (h : ∀ a ∈ l, ∀ b ∈ l, ahead? b a = some (!le a b)) :
    sort? ahead? l = some (l.mergeSort le) := by
  induction l with
  | nil => simp [sort?]
  | cons a l ih =>
      obtain ⟨front, back, hsorted, hrest, hfront⟩ := List.mergeSort_cons trans total a l
      have hl : ∀ a ∈ l, ∀ b ∈ l, ahead? b a = some (!le a b) := fun a ha b hb =>
        h a (List.mem_cons_of_mem _ ha) b (List.mem_cons_of_mem _ hb)
      have hmem : ∀ b ∈ front ++ back, ahead? b a = some (!le a b) := fun b hb =>
        h a List.mem_cons_self b
          (List.mem_cons_of_mem _ (List.mem_mergeSort.1 (hrest ▸ hb)))
      have hordered := List.pairwise_mergeSort trans total (a :: l)
      rw [hsorted, List.pairwise_append, List.pairwise_cons] at hordered
      rw [sort?, ih hl, hrest, hsorted]
      refine place?_append (fun b hb => ?_) fun b hb => ?_
      · rw [hmem b (List.mem_append_left _ hb), hfront b hb]
      · rw [hmem b (List.mem_append_right _ hb), hordered.2.1.1 b hb]
        rfl

end

variable {α : Type} [Scalar α]

/-- The verdict on a value: nothing if it is accepted, or else its breaches by their places.  There
is none when two places are compared that cannot be. -/
def verdict? (c : Contract α) (v : Value α) : Option (Except (List (Breach α)) Unit) :=
  (sort? (fun a b => Step.ahead? a.path b.path) (c.schema.breaches v)).map fun
    | [] => .ok ()
    | bs => .error bs

/-- Two places of breaches never part with an index and a name, so that there is a verdict on every
value: it is accepted, or it is refused with some breach. -/
theorem verdict_decides (c : Contract α) (v : Value α) :
    (∀ a ∈ c.schema.breaches v, ∀ b ∈ c.schema.breaches v, v.Parting a.path b.path) ∧
      (c.schema.accepts v = true ∧ c.verdict? v = some (.ok ()) ∨
        c.schema.accepts v = false ∧ c.violations v ≠ [] ∧
          c.verdict? v = some (.error (c.violations v))) := by
  have hparting : ∀ a ∈ c.schema.breaches v, ∀ b ∈ c.schema.breaches v,
      v.Parting a.path b.path := fun a ha b hb =>
    Value.parting_of_at? (Schema.at?_of_mem_breaches _ v a ha)
      (Schema.at?_of_mem_breaches _ v b hb)
  refine ⟨hparting, ?_⟩
  have hsort : sort? (fun a b => Step.ahead? a.path b.path) (c.schema.breaches v) =
      some (c.violations v) := by
    unfold violations
    refine sort?_eq_mergeSort ?_ ?_ fun a ha b hb => ?_
    · exact fun _ _ _ => Step.precedes_trans
    · exact fun _ _ => Step.precedes_total _ _
    · obtain ⟨r, hr⟩ := Option.isSome_iff_exists.1
        (Step.isSome_ahead?_of_parting (hparting b hb a ha))
      rw [hr, Step.precedes_of_ahead? hr, Bool.not_not]
  have hnone : c.violations v = [] ↔ c.schema.accepts v = true := by
    rw [Schema.accepts_iff, ← List.length_eq_zero_iff, violations, List.length_mergeSort,
      List.length_eq_zero_iff]
  unfold verdict?
  rw [hsort]
  cases hviolations : c.violations v with
  | nil => exact .inl ⟨hnone.1 hviolations, rfl⟩
  | cons b bs =>
      refine .inr ⟨?_, List.cons_ne_nil _ _, rfl⟩
      rw [← Bool.not_eq_true, ← hnone, hviolations]
      exact List.cons_ne_nil _ _

end Contract

end Storyboard
