import Mathlib.Data.List.Sort
import Storyboard.Prompt.Colour
import Storyboard.Proofs.Prompt.Search
/-!
# The order of first occurrence

Entries that occur at places can be listed in the order in which they are first met, each once.
There is one such list only, and keeping the first of equal entries makes it from all that a rule
finds in a text.
-/

namespace Storyboard

/-! ## Entries that are listed once -/

namespace Colour

theorem mem_distinct_iff {cs : List String} {v : String} : v ∈ distinct cs ↔ v ∈ cs := by
  induction cs with
  | nil => rfl
  | cons c cs ih =>
      rw [distinct, List.mem_cons, List.mem_cons, List.mem_filter, ih]
      by_cases hv : v = c <;> simp [hv]

theorem nodup_distinct (cs : List String) : (distinct cs).Nodup := by
  induction cs with
  | nil => exact .nil
  | cons c cs ih =>
      refine List.nodup_cons.2 ⟨fun hmem => ?_, ih.filter _⟩
      simpa using (List.mem_filter.1 hmem).2

theorem distinct_of_nodup {cs : List String} (h : cs.Nodup) : distinct cs = cs := by
  induction cs with
  | nil => rfl
  | cons c cs ih =>
      obtain ⟨hc, hcs⟩ := List.nodup_cons.1 h
      rw [distinct, ih hcs, List.filter_eq_self.2]
      intro d hd
      exact decide_eq_true fun heq => hc (heq ▸ hd)

/-- What comes later is listed unless it was listed before. -/
theorem distinct_append {cs ds : List String} (hcs : cs.Nodup) (hds : ds.Nodup) :
    distinct (cs ++ ds) = cs ++ ds.filter (· ∉ cs) := by
  induction cs with
  | nil => simpa using distinct_of_nodup hds
  | cons c cs ih =>
      obtain ⟨hc, hcs⟩ := List.nodup_cons.1 hcs
      have hkeep : cs.filter (· ≠ c) = cs := by
        refine List.filter_eq_self.2 fun d hd => decide_eq_true fun heq => ?_
        exact hc (heq ▸ hd)
      rw [List.cons_append, distinct, ih hcs, List.filter_append, hkeep, List.filter_filter]
      simp [not_or]

end Colour

/-! ## First places -/

/-- One entry is met before the other is met at all. -/
def Earlier (Occurs : Nat → String → Prop) (a b : String) : Prop :=
  ∃ i, Occurs i a ∧ ∀ j, Occurs j b → i < j

/-- The entries that occur, each once, in the order in which they are first met. -/
structure FirstSeen (Occurs : Nat → String → Prop) (l : List String) : Prop where
  mem_iff : ∀ c, c ∈ l ↔ ∃ i, Occurs i c
  ordered : l.Pairwise (Earlier Occurs)

variable {Occurs Later : Nat → String → Prop} {l l' : List String} {a b c : String}

theorem Earlier.asymm (hab : Earlier Occurs a b) : ¬ Earlier Occurs b a := by
  rintro ⟨j, hj, hlast⟩
  obtain ⟨i, hi, hfirst⟩ := hab
  have hij := hfirst j hj
  have hji := hlast i hi
  omega

instance : Std.Asymm (Earlier Occurs) := ⟨fun _ _ => Earlier.asymm⟩

theorem Earlier.shift (h : Earlier Occurs a b) (hzero : ¬ Later 0 b)
    (hsucc : ∀ i d, Later (i + 1) d ↔ Occurs i d) : Earlier Later a b := by
  obtain ⟨i, hi, hfirst⟩ := h
  refine ⟨i + 1, (hsucc i a).2 hi, fun j hj => ?_⟩
  cases j with
  | zero => exact absurd hj hzero
  | succ j =>
      have := hfirst j ((hsucc j b).1 hj)
      omega

namespace FirstSeen

theorem nodup (h : FirstSeen Occurs l) : l.Nodup :=
  h.ordered.nodup

theorem unique (h : FirstSeen Occurs l) (h' : FirstSeen Occurs l') : l = l' :=
  h.ordered.eq_of_mem_iff h'.ordered fun c => (h.mem_iff c).trans (h'.mem_iff c).symm

theorem of_none (h : ∀ i c, ¬ Occurs i c) : FirstSeen Occurs [] where
  mem_iff c := by simp [h]
  ordered := .nil

theorem eq_nil_iff (h : FirstSeen Occurs l) : l = [] ↔ ∀ i c, ¬ Occurs i c := by
  simp only [List.eq_nil_iff_forall_not_mem, h.mem_iff, not_exists]
  exact forall_comm

theorem congr (h : FirstSeen Occurs l) (hiff : ∀ i c, Later i c ↔ Occurs i c) :
    FirstSeen Later l := by
  obtain rfl : Later = Occurs := funext fun i => funext fun c => propext (hiff i c)
  exact h

theorem exists_later_iff (hsucc : ∀ i d, Later (i + 1) d ↔ Occurs i d) :
    (∃ i, Later i c) ↔ Later 0 c ∨ ∃ i, Occurs i c := by
  constructor
  · rintro ⟨_ | i, hi⟩
    · exact .inl hi
    · exact .inr ⟨i, (hsucc i c).1 hi⟩
  · rintro (h | ⟨i, hi⟩)
    · exact ⟨0, h⟩
    · exact ⟨i + 1, (hsucc i c).2 hi⟩

/-- Nothing new at the first place. -/
theorem skip (h : FirstSeen Occurs l) (hzero : ∀ d, ¬ Later 0 d)
    (hsucc : ∀ i d, Later (i + 1) d ↔ Occurs i d) : FirstSeen Later l where
  mem_iff d := by
    rw [h.mem_iff, exists_later_iff hsucc]
    simp [hzero]
  ordered := h.ordered.imp fun hab => hab.shift (hzero _) hsucc

/-- An entry at the first place comes before all others. -/
theorem cons (h : FirstSeen Occurs l) (hzero : ∀ d, Later 0 d ↔ d = c)
    (hsucc : ∀ i d, Later (i + 1) d ↔ Occurs i d) :
    FirstSeen Later (c :: l.filter (· ≠ c)) where
  mem_iff d := by
    rw [exists_later_iff hsucc, hzero, ← h.mem_iff, List.mem_cons, List.mem_filter]
    by_cases hd : d = c <;> simp [hd]
  ordered := by
    have hother : ∀ d ∈ l.filter (· ≠ c), ¬ Later 0 d := by
      intro d hd hfirst
      have hne := (List.mem_filter.1 hd).2
      simp [(hzero d).1 hfirst] at hne
    refine List.pairwise_cons.2 ⟨fun d hd => ?_, ?_⟩
    · refine ⟨0, (hzero c).2 rfl, fun j hj => Nat.pos_of_ne_zero ?_⟩
      rintro rfl
      exact hother d hd hj
    · exact (h.ordered.filter _).imp_of_mem fun _ hb hab => hab.shift (hother _ hb) hsucc

/-- A relation that starts from the first part only. -/
theorem pairwise_append_guarded {r : String → String → Prop} {first rest : List String}
    (hdisjoint : first.Disjoint rest) :
    (first ++ rest).Pairwise (fun a b => a ∈ first → r a b) ↔
      first.Pairwise r ∧ ∀ a ∈ first, ∀ b ∈ rest, r a b := by
  rw [List.pairwise_append]
  constructor
  · rintro ⟨hfirst, -, hcross⟩
    exact ⟨hfirst.imp_of_mem fun ha _ h => h ha, fun a ha b hb => hcross a ha b hb ha⟩
  · rintro ⟨hfirst, hcross⟩
    refine ⟨?_, ?_, fun a ha b hb _ => hcross a ha b hb⟩
    · exact hfirst.imp_of_mem fun _ _ h _ => h
    · exact List.pairwise_of_forall_mem_list fun a ha _ _ hmem => absurd ha (hdisjoint hmem)

/-- Another listing of the same entries starts with the same ones exactly when each of these is met
before all that the listing puts after it. -/
theorem take_eq_iff {ranked : List String} (h : FirstSeen Occurs l) (hnodup : ranked.Nodup)
    (hmem : ∀ c, c ∈ ranked ↔ c ∈ l) (k : Nat) : ranked.take k = l.take k ↔
      ranked.Pairwise fun a b => a ∈ ranked.take k → Earlier Occurs a b := by
  have hguarded := pairwise_append_guarded (r := Earlier Occurs)
    (List.disjoint_take_drop hnodup (le_refl k))
  rw [List.take_append_drop] at hguarded
  rw [hguarded]
  constructor
  · intro heq
    have hordered := h.ordered
    rw [← List.take_append_drop k l, List.pairwise_append] at hordered
    rw [heq]
    refine ⟨hordered.1, fun a ha b hb => hordered.2.2 a ha b ?_⟩
    have hl : b ∈ l.take k ++ l.drop k := by
      rw [List.take_append_drop]
      exact (hmem b).1 (List.mem_of_mem_drop hb)
    apply (List.mem_append.1 hl).resolve_left
    rw [← heq]
    exact fun hfirst => List.disjoint_take_drop hnodup (le_refl k) hfirst hb
  · rintro ⟨hfirst, hcross⟩
    have hsplit : l = ranked.take k ++ l.filter (· ∉ ranked.take k) := by
      refine h.ordered.eq_of_mem_iff (List.pairwise_append.2 ⟨hfirst, h.ordered.filter _, ?_⟩) ?_
      · intro a ha b hb
        obtain ⟨hl, hnot⟩ := List.mem_filter.1 hb
        refine hcross a ha b (Or.resolve_left ?_ (of_decide_eq_true hnot))
        rw [← List.mem_append, List.take_append_drop]
        exact (hmem b).2 hl
      · intro c
        by_cases hc : c ∈ ranked.take k
        · simpa [hc] using (hmem c).1 (List.mem_of_mem_take hc)
        · simp [hc]
    rw [hsplit, List.take_append, List.take_take, min_self]
    rcases Nat.le_total k ranked.length with hlong | hshort
    · simp [hlong]
    · rw [List.take_of_length_le hshort]
      simp [← hmem]

end FirstSeen

/-! ## All that a rule finds -/

namespace Text

variable {rule : Bool → List Char → Option String} {inside : Bool}

/-- Every answer that a rule gives, from left to right. -/
def findAll (rule : Bool → List Char → Option String) (inside : Bool) :
    List Char → List String
  | [] => []
  | c :: rest => (rule inside (c :: rest)).toList ++ findAll rule (isWord c) rest

/-- What a rule gives at a place of a text. -/
def answerAt (rule : Bool → List Char → Option String) (inside : Bool) (cs : List Char)
    (i : Nat) : Option String :=
  rule (insideAfter inside (cs.take i)) (cs.drop i)

theorem answerAt_cons_succ (d : Char) (cs : List Char) (i : Nat) :
    answerAt rule inside (d :: cs) (i + 1) = answerAt rule (isWord d) cs i := by
  rw [answerAt, List.take_succ_cons, insideAfter_cons, List.drop_succ_cons]
  rfl

/-- What a rule finds, less what it found before, is in the order of first occurrence. -/
theorem firstSeen_findAll (hnil : ∀ inside, rule inside [] = none) (inside : Bool)
    (cs : List Char) : FirstSeen (fun i c => answerAt rule inside cs i = some c)
      (Colour.distinct (findAll rule inside cs)) := by
  induction cs generalizing inside with
  | nil =>
      refine .of_none fun i c => ?_
      rw [answerAt, List.drop_nil, hnil]
      simp
  | cons d cs ih =>
      have hsucc : ∀ i c, answerAt rule inside (d :: cs) (i + 1) = some c ↔
          answerAt rule (isWord d) cs i = some c := fun i c => by rw [answerAt_cons_succ]
      have hzero : answerAt rule inside (d :: cs) 0 = rule inside (d :: cs) := rfl
      rw [findAll]
      cases hrule : rule inside (d :: cs) with
      | none => exact (ih (isWord d)).skip (fun c => by rw [hzero, hrule]; simp) hsucc
      | some answer =>
          exact (ih (isWord d)).cons (fun c => by rw [hzero, hrule]; simp [eq_comm]) hsucc

end Text

end Storyboard
