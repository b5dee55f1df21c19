import Mathlib.Data.List.Count
import Storyboard.Proofs.Assessment
/-!
# Sound sequences

A sequence is sound when every reference is to a known element or to one that was added before, no
element is added twice and the numbers of new placeholders rise.  The checks on a sequence that the
gate accepts pass exactly when it is sound and the gate had nothing to move into a range; so they
pass for what comes out of the gate exactly when the sequence that went in is sound.
-/

namespace Storyboard

open Quality (placeholderDigits? placeholderNumbers Overlong)

variable {α : Type}

/-! ## Soundness -/

/-- An id is as a whole the placeholder of a number; a line end may follow. -/
def Placeholder.Numbers (id : String) (n : Nat) : Prop :=
  ∃ ds rest, AreDigits ds ∧ (rest = [] ∨ rest = ['\n']) ∧
    id.toList = opening ++ ds ++ closing ++ rest ∧ n = valueOf ds

/-- Every reference is to a known element or to one that was added before, no element is added
twice, and the numbers of the placeholders among the new ids rise. -/
structure Sound (known : List String) (actions : List (Value α)) : Prop where
  resolved : ∀ before a after, actions = before ++ a :: after →
    ∀ v ∈ references a, ∃ s, v = .text s ∧ (s ∈ known ∨ s ∈ addedIds before)
  unique : (addedIds actions).Nodup
  rising : (addedIds actions).Pairwise fun earlier later =>
    ∀ m n, Placeholder.Numbers earlier m → Placeholder.Numbers later n → m < n

theorem addedIds_cons (a : Value α) (as : List (Value α)) :
    addedIds (a :: as) = (addedId? a).toList ++ addedIds as := by
  unfold addedIds
  rw [List.filterMap_cons]
  cases addedId? a <;> rfl

/-- Closure looks at each action with what was added before it. -/
theorem closed_iff {known : List String} {actions : List (Value α)} :
    Closed known actions ↔ ∀ before a after, actions = before ++ a :: after →
      ∀ v ∈ references a, ∃ s, v = .text s ∧ (s ∈ known ∨ s ∈ addedIds before) := by
  induction actions generalizing known with
  | nil => simp [Closed]
  | cons a actions ih =>
      have hmem : ∀ s before, (s ∈ (addedId? a).toList ++ known ∨ s ∈ addedIds before) ↔
          s ∈ known ∨ s ∈ addedIds (a :: before) := by
        intro s before
        rw [addedIds_cons, List.mem_append, List.mem_append]
        tauto
      simp only [Closed, ih, hmem]
      constructor
      · rintro ⟨hhead, hrest⟩ before b after hsplit v hv
        cases before with
        | nil =>
            obtain ⟨rfl, -⟩ := List.cons.inj hsplit
            obtain ⟨s, hs, hv⟩ := hhead v hv
            exact ⟨s, hv, .inl hs⟩
        | cons c before =>
            obtain ⟨rfl, htail⟩ := List.cons.inj hsplit
            exact hrest before b after htail v hv
      · intro h
        refine ⟨fun v hv => ?_, fun before b after hsplit => ?_⟩
        · obtain ⟨s, hv, hs⟩ := h [] a actions rfl v hv
          exact ⟨s, by simpa [addedIds] using hs, hv⟩
        · exact h (a :: before) b after (by rw [hsplit]; rfl)

theorem sound_iff {known : List String} {actions : List (Value α)} :
    Sound known actions ↔ Closed known actions ∧ (addedIds actions).Nodup ∧
      (addedIds actions).Pairwise fun earlier later =>
        ∀ m n, Placeholder.Numbers earlier m → Placeholder.Numbers later n → m < n := by
  rw [closed_iff]
  exact ⟨fun h => ⟨h.resolved, h.unique, h.rising⟩, fun h => ⟨h.1, h.2.1, h.2.2⟩⟩

/-! ## Numbers of placeholders -/

theorem placeholderDigits?_eq_some_iff {id : String} {ds : List Char} :
    placeholderDigits? id = some ds ↔ Placeholder.AreDigits ds ∧
      ∃ rest, (rest = [] ∨ rest = ['\n']) ∧
        id.toList = Placeholder.opening ++ ds ++ Placeholder.closing ++ rest := by
  constructor
  · intro h
    unfold placeholderDigits? at h
    split at h
    case h_3 => cases h
    all_goals
      rename_i hat
      obtain rfl := Option.some.inj h
      obtain ⟨hdigits, hid⟩ := Placeholder.at?_eq_some_iff.1 hat
    · exact ⟨hdigits, [], .inl rfl, hid⟩
    · exact ⟨hdigits, ['\n'], .inr rfl, hid⟩
  · rintro ⟨hdigits, rest, hrest, hid⟩
    rw [placeholderDigits?, Placeholder.at?_eq_some_iff.2 ⟨hdigits, hid⟩]
    rcases hrest with rfl | rfl <;> rfl

theorem Placeholder.numbers_iff {id : String} {n : Nat} :
    Numbers id n ↔ (placeholderDigits? id).map valueOf = some n := by
  simp only [Numbers, Option.map_eq_some_iff, placeholderDigits?_eq_some_iff]
  constructor
  · rintro ⟨ds, rest, hdigits, hrest, hid, hn⟩
    exact ⟨ds, ⟨hdigits, rest, hrest, hid⟩, hn.symm⟩
  · rintro ⟨ds, ⟨hdigits, rest, hrest, hid⟩, hn⟩
    exact ⟨ds, rest, hdigits, hrest, hid, hn.symm⟩

theorem placeholderNumbers_eq {ids : List String} {ns : List Nat}
    (h : placeholderNumbers ids = .ok ns) :
    ns = ids.filterMap fun id => (placeholderDigits? id).map Placeholder.valueOf := by
  induction ids generalizing ns with
  | nil => exact (Except.ok.inj h).symm
  | cons id ids ih =>
      rw [List.filterMap_cons]
      cases hds : placeholderDigits? id with
      | none =>
          simp only [placeholderNumbers, hds] at h
          exact ih h
      | some ds =>
          simp only [placeholderNumbers, hds, bind_eq_ok_iff] at h
          obtain ⟨n, hn, later, hlater, h⟩ := h
          obtain rfl := Except.ok.inj h
          rw [ih hlater, (Placeholder.number_eq_ok_iff.1 hn).2]
          rfl

theorem isRising_placeholderNumbers {ids : List String} {ns : List Nat}
    (h : placeholderNumbers ids = .ok ns) :
    Quality.isRising ns = true ↔ ids.Pairwise fun earlier later =>
      ∀ m n, Placeholder.Numbers earlier m → Placeholder.Numbers later n → m < n := by
  rw [Quality.isRising_iff, placeholderNumbers_eq h, List.pairwise_filterMap]
  simp only [Placeholder.numbers_iff]
  refine List.Pairwise.iff fun earlier later => ?_
  exact ⟨fun h m n hm hn => h m hm n hn, fun h m hm n hn => h m n hm hn⟩

/-! ## What the gate accepts -/

theorem Gate.forall₂_of_ok [Scalar α] {index : Nat} {as : List (Value α)} {r : Passage α}
    (h : passFrom index as = .ok r) (hok : r.ok = true) :
    List.Forall₂ (fun a b => pass a = .ok (some b)) as r.actions := by
  induction as generalizing index r with
  | nil =>
      obtain rfl := Except.ok.inj h
      exact .nil
  | cons a as ih =>
      simp only [passFrom, bind_eq_ok_iff] at h
      obtain ⟨passed?, hpass, later, hlater, h⟩ := h
      cases passed? with
      | none =>
          obtain rfl := Except.ok.inj h
          cases hok
      | some b =>
          obtain rfl := Except.ok.inj h
          exact .cons hpass (ih hlater hok)

section

variable {as bs : List (Value Float)}

theorem addedIds_of_passed (h : List.Forall₂ (fun a b => Gate.pass a = .ok (some b)) as bs) :
    addedIds bs = addedIds as := by
  induction h with
  | nil => rfl
  | cons hpass _ ih => rw [addedIds_cons, addedIds_cons, Gate.addedId?_of_pass hpass, ih]

theorem closed_of_passed {known : List String}
    (h : List.Forall₂ (fun a b => Gate.pass a = .ok (some b)) as bs) :
    Closed known bs ↔ Closed known as := by
  induction h generalizing known with
  | nil => exact Iff.rfl
  | cons hpass _ ih =>
      rw [Closed, Closed, Gate.addedId?_of_pass hpass, Gate.references_of_pass hpass, ih]

/-- The gate keeps what soundness is about. -/
theorem sound_of_passed {known : List String}
    (h : List.Forall₂ (fun a b => Gate.pass a = .ok (some b)) as bs) :
    Sound known bs ↔ Sound known as := by
  rw [sound_iff, sound_iff, closed_of_passed h, addedIds_of_passed h]

theorem ranged_of_passed (h : List.Forall₂ (fun a b => Gate.pass a = .ok (some b)) as bs) :
    (∀ a ∈ as, ∃ ranged, rangedIn a = .ok ranged) ∧ ((∀ a ∈ as, Ranged a) ↔ bs = as) := by
  induction h with
  | nil => simp
  | cons hpass _ ih =>
      obtain ⟨hrest, hsame⟩ := ih
      obtain ⟨ranged, hranged, hhead⟩ := rangedIn_of_pass hpass
      rw [List.forall_mem_cons, List.forall_mem_cons, List.cons.injEq, hsame, ranged_iff, hranged,
        Except.ok.injEq, hhead]
      exact ⟨⟨⟨ranged, rfl⟩, hrest⟩, Iff.rfl⟩

theorem texts_of_passed (h : List.Forall₂ (fun a b => Gate.pass a = .ok (some b)) as bs) :
    ∀ a ∈ as, ∀ v ∈ references a, ∃ s, v = .text s := by
  induction h with
  | nil => exact List.forall_mem_nil _
  | cons hpass _ ih =>
      refine List.forall_mem_cons.2 ⟨?_, ih⟩
      rw [← Gate.references_of_pass hpass]
      exact texts_of_steady (Gate.steady_of_pass hpass)

theorem timed_of_passed (h : List.Forall₂ (fun a b => Gate.pass a = .ok (some b)) as bs) :
    ∀ a ∈ as, Timed a := by
  induction h with
  | nil => exact List.forall_mem_nil _
  | cons hpass _ ih => exact List.forall_mem_cons.2 ⟨timed_of_pass hpass, ih⟩

end

/-! ## Reports -/

theorem Assessment.ok_iff {t : Assessment} : t.ok = true ↔ ∀ p ∈ t.results, p.2 = true := by
  simp [Assessment.ok, Assessment.failures]

namespace Quality

theorem count_passed_add_count_failures (t : Assessment) (c : Check) :
    t.passed.count c + t.failures.count c = (t.results.map Prod.fst).count c := by
  unfold Assessment.passed Assessment.failures
  induction t.results with
  | nil => rfl
  | cons p results ih =>
      obtain ⟨check, ok⟩ := p
      cases ok <;> simp [List.count_cons] at ih ⊢ <;> omega

/-- Each check is reported once, under one of its names. -/
theorem count_reports {present : Bool} {s : Survey Float} {t : Assessment}
    (h : conclude present s = .ok t) (c : Check) :
    t.checkNames.count c.names.1 + t.failureNames.count c.names.2 = 1 := by
  have hpassed : t.checkNames.count c.names.1 = t.passed.count c := by
    have hspan : c.names.1 ≠ "animation_span_meets_floor" := by cases c <;> decide
    have hinj : Function.Injective fun c : Check => c.names.1 := by
      intro c d
      cases c <;> cases d <;> decide
    rw [Assessment.checkNames, List.count_append,
      List.count_map_of_injective t.passed (fun c => c.names.1) hinj]
    split <;> simp [hspan.symm]
  have hfailed : t.failureNames.count c.names.2 = t.failures.count c := by
    have hinj : Function.Injective fun c : Check => c.names.2 := by
      intro c d
      cases c <;> cases d <;> decide
    exact List.count_map_of_injective t.failures (fun c => c.names.2) hinj c
  rw [hpassed, hfailed, count_passed_add_count_failures]
  simp only [conclude, bind_eq_ok_iff] at h
  obtain ⟨numbers, -, h⟩ := h
  obtain rfl := Except.ok.inj h
  cases c <;> rfl

/-- An assessment of what the gate accepts finds nothing exactly when the sequence is sound and the
gate changed nothing. -/
theorem assess_of_passed {as bs : List (Value Float)} (hne : as ≠ [])
    (h : List.Forall₂ (fun a b => Gate.pass a = .ok (some b)) as bs)
    (hshort : ∀ id ∈ addedIds as, ∀ n, ¬ Overlong id n) (known : List String) :
    ∃ t, assess (.list as) (.list (known.map .text)) = .ok t ∧
      (t.ok = true ↔ Sound known as ∧ bs = as) ∧
      ∀ c : Check, t.checkNames.count c.names.1 + t.failureNames.count c.names.2 = 1 := by
  obtain ⟨hranged, hsame⟩ := ranged_of_passed h
  obtain ⟨s, hs, hadded, hunresolved, hrange, htime⟩ :=
    surveyAll_of_texts (s := { known := ⟨known.map .text⟩ }) rfl (texts_of_passed h) hranged
      (timed_of_passed h)
  have hids : s.added.reverse = addedIds as := by
    rw [hadded, List.append_nil, List.reverse_reverse]
  have hassess : assess (.list as) (.list (known.map .text)) = conclude (!as.isEmpty) s := by
    simp only [assess, Membership.ofValue_texts, ok_bind, Value.items?, Option.getD_some, hs]
  obtain ⟨ns, hns⟩ : ∃ ns, placeholderNumbers (addedIds as) = .ok ns := by
    rcases placeholderNumbers_cases (addedIds as) with ⟨hns, -⟩ | ⟨id, hid, n, hlong, -⟩
    · exact hns
    · exact absurd hlong (hshort id hid n)
  obtain ⟨t, ht⟩ : ∃ t, conclude (!as.isEmpty) s = .ok t := by
    rw [conclude, hids, hns]
    exact ⟨_, rfl⟩
  refine ⟨t, hassess.trans ht, ?_, count_reports ht⟩
  simp only [true_and] at hunresolved hrange
  rw [sound_iff, ← hsame, ← hunresolved, ← hrange, ← isDistinct_iff,
    ← isRising_placeholderNumbers hns]
  simp only [conclude, hids, hns, ok_bind] at ht
  obtain rfl := Except.ok.inj ht
  have hempty : as.isEmpty = false := by simpa using hne
  simp only [Assessment.ok_iff, hempty, htime, List.forall_mem_cons, Bool.not_eq_true',
    Bool.not_false]
  tauto

/-- The checks on a sequence that the gate accepts come to a result and report each check once.
Nothing is found in it when it is sound and has nothing that the gate moves into a range, and
nothing is found in what comes out of the gate when it is sound. -/
theorem assess_accepted {as : List (Value Float)} {r : Passage Float} (hne : as ≠ [])
    (h : Gate.passAll as = .ok r) (hok : r.ok = true)
    (hshort : ∀ id ∈ addedIds as, ∀ n, ¬ Overlong id n) (known : List String) :
    (∃ t, assess (.list as) (.list (known.map .text)) = .ok t ∧
      (t.ok = true ↔ Sound known as ∧ r.actions = as) ∧
      ∀ c : Check, t.checkNames.count c.names.1 + t.failureNames.count c.names.2 = 1) ∧
    ∃ t, assess (.list r.actions) (.list (known.map .text)) = .ok t ∧
      (t.ok = true ↔ Sound known as) ∧
      ∀ c : Check, t.checkNames.count c.names.1 + t.failureNames.count c.names.2 = 1 := by
  have hpassed := Gate.forall₂_of_ok h hok
  refine ⟨assess_of_passed hne hpassed hshort known, ?_⟩
  have hsteady : List.Forall₂ (fun a b => Gate.pass a = .ok (some b)) r.actions r.actions :=
    List.forall₂_same.2 (Gate.steady_of_passFrom h)
  have hnonempty : r.actions ≠ [] := by
    rw [← List.length_pos_iff, ← hpassed.length_eq, List.length_pos_iff]
    exact hne
  obtain ⟨t, ht, hiff, hcount⟩ :=
    assess_of_passed hnonempty hsteady (by rwa [addedIds_of_passed hpassed]) known
  exact ⟨t, ht, by rw [hiff, sound_of_passed hpassed, and_iff_left rfl], hcount⟩

/-- A lamp that is too bright. -/
def glaring : List (Value Float) :=
  [(Action.add .circle "lamp" [("opacity", .real 2.0)] .unstated).toValue]

/-- A lamp that is too bright is accepted and sound, but what the gate moves is out of range. -/
theorem assess_glaring : glaring ≠ [] ∧ (∃ r, Gate.passAll glaring = .ok r ∧ r.ok = true) ∧
    (∀ id ∈ addedIds glaring, ∀ n, ¬ Overlong id n) ∧ Sound [] glaring ∧
    ∃ t, assess (.list glaring) (.list ([].map .text)) = .ok t ∧ t.ok = false := by
  have hids : addedIds glaring = ["lamp"] := rfl
  refine ⟨List.cons_ne_nil _ _, ⟨_, rfl, rfl⟩, ?_, ?_, ⟨_, rfl, rfl⟩⟩
  · rw [hids, List.forall_mem_singleton]
    rintro n ⟨ds, hds, -⟩
    cases hds
  · refine sound_iff.2 ⟨⟨?_, trivial⟩, ?_, ?_⟩
    · exact List.forall_mem_nil _
    · simp [hids]
    · exact List.pairwise_singleton _ _

/-- A new lamp that is too bright on a wall that was there before, switched on after a while. -/
def mounted : List (Value Float) := [
  (Action.add .circle (Placeholder.id 2) [("opacity", .real 2.0)] (.of "wall")).toValue,
  (Action.update "wall" [("fill", .text "white")]).toValue,
  (Action.add .rect (Placeholder.id 10) [] .unstated).toValue,
  (Action.key (Placeholder.id 2) "opacity" 1.0 1.0).toValue]

theorem addedIds_mounted : addedIds mounted = [2, 10].map Placeholder.id ∧
    ∀ k ∈ [2, 10], (Decimal.digits k).length ≤ Fault.digitLimit :=
  ⟨rfl, by decide⟩

theorem sound_mounted : Sound ["wall"] mounted := by
  obtain ⟨hids, hdigits⟩ := addedIds_mounted
  refine sound_iff.2 ⟨?_, ?_, ?_⟩
  · refine ⟨?_, ?_, ?_, ?_, trivial⟩
    · exact List.forall_mem_singleton.2 ⟨"wall", by decide, rfl⟩
    · exact List.forall_mem_singleton.2 ⟨"wall", by decide, rfl⟩
    · exact List.forall_mem_nil _
    · exact List.forall_mem_singleton.2 ⟨Placeholder.id 2, by decide, rfl⟩
  · rw [hids]
    exact nodup_map_id (by decide)
  · have hnumbers : placeholderNumbers ([2, 10].map Placeholder.id) = .ok [2, 10] :=
      placeholderNumbers_map_id fun k hk =>
        (Placeholder.length_digits_le_iff k).1 (hdigits k hk)
    rw [hids, ← isRising_placeholderNumbers hnumbers]
    decide

theorem assess_accepted_mounted : ∃ r, Gate.passAll mounted = .ok r ∧ r.ok = true ∧
    (∀ id ∈ addedIds mounted, ∀ n, ¬ Overlong id n) ∧
    (∃ t, assess (.list r.actions) (.list (["wall"].map .text)) = .ok t ∧ t.ok = true) ∧
    ∃ t, assess (.list mounted) (.list (["wall"].map .text)) = .ok t ∧ t.ok = false := by
  obtain ⟨hids, hdigits⟩ := addedIds_mounted
  obtain ⟨r, hr, hok⟩ : ∃ r, Gate.passAll mounted = .ok r ∧ r.ok = true := ⟨_, rfl, rfl⟩
  have hshort : ∀ id ∈ addedIds mounted, ∀ n, ¬ Overlong id n := by
    rw [hids, List.forall_mem_map]
    rintro k hk n ⟨ds, hds, rfl, hlong⟩
    obtain rfl := Option.some.inj ((placeholderDigits?_id k).symm.trans hds)
    exact Nat.not_lt_of_le (hdigits k hk) hlong
  obtain ⟨-, t, ht, hiff, -⟩ := assess_accepted (List.cons_ne_nil _ _) hr hok hshort ["wall"]
  exact ⟨r, hr, hok, hshort, ⟨t, ht, hiff.2 sound_mounted⟩, _, rfl, rfl⟩

end Quality

end Storyboard
