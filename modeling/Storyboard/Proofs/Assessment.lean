import Storyboard.Proofs.Draft.Fits
import Storyboard.Proofs.Quality
/-!
# Assessing what passed the gate

The gate and the checks on a whole sequence read actions alike: what passed refers to elements by
text, has its values in range and its times in order.  So an assessment of it comes to a result,
unless an element's id is a placeholder with more digits than a number is read from.
-/

namespace Storyboard

/-- What passed refers to elements by text. -/
theorem texts_of_steady {a : Value Float} (h : Gate.Steady a) :
    ∀ v ∈ references a, ∃ s, v = .text s := by
  obtain ⟨name, payload, hname, hpayload, hpass⟩ := Gate.steady_iff.1 h
  cases name with
  | addElement =>
      obtain ⟨fields, rfl⟩ := Gate.object_of_passPayload (.inl rfl) hpass
      obtain ⟨-, _, -, -, hparent, -⟩ := Gate.passElement_eq_self_iff.1 hpass
      simp only [references, hname, payloadOf_eq hpayload, Quality.fieldOf]
      cases hfield : Fields.get? fields "targetParentId" with
      | none => simp [Value.kind]
      | some v => cases v <;> simp_all [Gate.isOptionalText, Value.kind]
  | updateElement =>
      obtain ⟨fields, rfl⟩ := Gate.object_of_passPayload (.inr (.inl rfl)) hpass
      obtain ⟨hid, -⟩ := Gate.passUpdate_eq_self_iff.1 hpass
      obtain ⟨s, hs⟩ := Gate.exists_text_of_isNamed hid
      simp [references, hname, payloadOf_eq hpayload, Quality.fieldOf, hs]
  | addKeyframe =>
      obtain ⟨fields, rfl⟩ := Gate.object_of_passPayload (.inr (.inr rfl)) hpass
      obtain ⟨hid, -⟩ := Gate.passKeyframe_eq_self_iff.1 hpass
      obtain ⟨s, hs⟩ := Gate.exists_text_of_isNamed hid
      simp [references, hname, payloadOf_eq hpayload, Quality.fieldOf, hs]
  | _ => simp [references, hname]

namespace Quality

/-- The id is a placeholder with `n` digits, more than a number is read from. -/
def Overlong (id : String) (n : Nat) : Prop :=
  ∃ ds, placeholderDigits? id = some ds ∧ ds.length = n ∧ Fault.digitLimit < n

/-- What follows a short id is read as it is without it. -/
theorem placeholderNumbers_cons_of_short {id : String} (ids : List String)
    (h : ∀ n, ¬ Overlong id n) :
    ∃ extend, placeholderNumbers (id :: ids) = (placeholderNumbers ids).map extend := by
  cases hds : placeholderDigits? id with
  | none =>
      refine ⟨fun ns => ns, ?_⟩
      cases hids : placeholderNumbers ids <;> simp [placeholderNumbers, hds, hids]
  | some ds =>
      have hlength : ¬ Fault.digitLimit < ds.length := fun hlong => h _ ⟨ds, hds, rfl, hlong⟩
      obtain ⟨k, hk⟩ : ∃ k, Placeholder.number ds = .ok k :=
        ⟨_, Placeholder.number_eq_ok_iff.2 ⟨Nat.le_of_not_lt hlength, rfl⟩⟩
      refine ⟨(k :: ·), ?_⟩
      cases hids : placeholderNumbers ids <;> simp [placeholderNumbers, hds, hk, hids]

/-- Either the numbers of all ids are read, or one of the ids is too long and the fault says so. -/
theorem placeholderNumbers_cases (ids : List String) :
    ((∃ ns, placeholderNumbers ids = .ok ns) ∧ ∀ id ∈ ids, ∀ n, ¬ Overlong id n) ∨
      ∃ id ∈ ids, ∃ n, Overlong id n ∧
        placeholderNumbers ids = .error (.tooManyDigits (some n)) := by
  induction ids with
  | nil => exact .inl ⟨⟨[], rfl⟩, List.forall_mem_nil _⟩
  | cons id ids ih =>
      by_cases hlong : ∃ n, Overlong id n
      · obtain ⟨_, ds, hds, rfl, hlong⟩ := hlong
        refine .inr ⟨id, List.mem_cons_self, ds.length, ⟨ds, hds, rfl, hlong⟩, ?_⟩
        simp [placeholderNumbers, hds, Placeholder.number, hlong]
      · rw [not_exists] at hlong
        obtain ⟨extend, hextend⟩ := placeholderNumbers_cons_of_short ids hlong
        rw [hextend]
        rcases ih with ⟨⟨ns, hns⟩, hall⟩ | ⟨other, hmem, n, hother, herror⟩
        · exact .inl ⟨⟨extend ns, by rw [hns]; rfl⟩, List.forall_mem_cons.2 ⟨hlong, hall⟩⟩
        · exact .inr ⟨other, List.mem_cons_of_mem _ hmem, n, hother, by rw [herror]; rfl⟩

/-- The checks on a sequence that the gate changes nothing about get as far as the ids, with nothing
out of range and every time in order. -/
theorem assess_of_steady {actions : List (Value Float)} (h : ∀ a ∈ actions, Gate.Steady a)
    (known : List String) :
    ∃ s : Survey Float, s.added.reverse = addedIds actions ∧
      (s.unresolved = false ↔ Closed known actions) ∧ s.outOfRange = false ∧ s.untimed = false ∧
      assess (.list actions) (.list (known.map .text)) = conclude (!actions.isEmpty) s := by
  obtain ⟨s, hs, hadded, hunresolved, hrange, htime⟩ :=
    surveyAll_of_texts (s := { known := ⟨known.map .text⟩ }) rfl
      (fun a ha => texts_of_steady (h a ha))
      (fun a ha => ⟨true, ranged_iff.1 (ranged_of_steady (h a ha))⟩)
      fun a ha => timed_of_pass (h a ha)
  have hinRange := hrange.2 ⟨rfl, fun a ha => ranged_of_steady (h a ha)⟩
  refine ⟨s, ?_, by simpa using hunresolved, hinRange, htime, ?_⟩
  · rw [hadded, List.append_nil, List.reverse_reverse]
  · simp only [assess, Membership.ofValue_texts, ok_bind, Value.items?, Option.getD_some, hs]

/-- Checks on a sequence that passed the gate fault only at an id that is too long.  Without one,
they come to a result: values are in range and times in order, and references are resolved exactly
when the sequence is closed over the canvas. -/
theorem assess_passed {as : List (Value Float)} {r : Passage Float} (h : Gate.passAll as = .ok r)
    (known : List String) :
    (∀ a ∈ r.actions, ∀ v ∈ references a, ∃ s, v = .text s) ∧
    ((∃ t, assess (.list r.actions) (.list (known.map .text)) = .ok t) ↔
      ∀ id ∈ addedIds r.actions, ∀ n, ¬ Overlong id n) ∧
    (∀ fault, assess (.list r.actions) (.list (known.map .text)) = .error fault →
      ∃ id ∈ addedIds r.actions, ∃ n, Overlong id n ∧ fault = .tooManyDigits (some n)) ∧
    ∀ t, assess (.list r.actions) (.list (known.map .text)) = .ok t →
      .inRange ∉ t.failures ∧ .timed ∉ t.failures ∧
        (.resolved ∉ t.failures ↔ Closed known r.actions) := by
  have hsteady := Gate.steady_of_passFrom h
  refine ⟨fun a ha => texts_of_steady (hsteady a ha), ?_⟩
  obtain ⟨s, hids, hresolved, hrange, htime, hassess⟩ := assess_of_steady hsteady known
  rw [hassess, conclude, hids]
  rcases placeholderNumbers_cases (addedIds r.actions) with
    ⟨⟨ns, hns⟩, hall⟩ | ⟨id, hid, n, hlong, herror⟩
  · rw [hns]
    refine ⟨iff_of_true ⟨_, rfl⟩ hall, fun fault hfault => ?_, fun t ht => ?_⟩
    · cases hfault
    · obtain rfl := Except.ok.inj ht
      refine ⟨?_, ?_, ?_⟩
      · simp [Assessment.failures, hrange]
      · simp [Assessment.failures, htime]
      · simpa [Assessment.failures] using hresolved
  · rw [herror]
    refine ⟨iff_of_false ?_ fun hall => hall id hid n hlong, fun fault hfault => ?_, fun t ht => ?_⟩
    · rintro ⟨t, ht⟩
      cases ht
    · exact ⟨id, hid, n, hlong, (Except.error.inj hfault).symm⟩
    · cases ht

/-- A lamp that is too bright, a wall that was there before and a light that comes on late. -/
def lit : List (Value Float) := [
  (Action.add .circle "lamp" [("opacity", .real 2.0)] .unstated).toValue,
  (Action.update "wall" [("fill", .text "white"), ("strokeWidth", .int (-1))]).toValue,
  (Action.key "lamp" "opacity" 0.0 (-1.0)).toValue,
  (Action.key "lamp" "opacity" (-2.0) 1.0).toValue]

theorem assess_passed_lit : ∃ r, Gate.passAll lit = .ok r ∧ r.actions.length = 3 ∧
    ∃ t, assess (.list r.actions) (.list (["wall"].map .text)) = .ok t ∧
      .inRange ∉ t.failures ∧ .timed ∉ t.failures := by
  obtain ⟨r, hr, hlength, hids⟩ : ∃ r, Gate.passAll lit = .ok r ∧ r.actions.length = 3 ∧
      addedIds r.actions = ["lamp"] := ⟨_, rfl, rfl, rfl⟩
  obtain ⟨-, hreturns, -, hok⟩ := assess_passed hr ["wall"]
  obtain ⟨t, ht⟩ := hreturns.2 (by
    rw [hids, List.forall_mem_singleton]
    rintro n ⟨ds, hds, -⟩
    cases hds)
  exact ⟨r, hr, hlength, t, ht, (hok t ht).1, (hok t ht).2.1⟩

/-- A placeholder of nines. -/
def nines (n : Nat) : String :=
  String.ofList (Placeholder.opening ++ List.replicate n '9' ++ Placeholder.closing)

theorem overlong_nines {n : Nat} (h : Fault.digitLimit < n) : Overlong (nines n) n := by
  have hat : Placeholder.at? (nines n).toList = some (List.replicate n '9', []) := by
    refine Placeholder.at?_eq_some_iff.2 ⟨⟨?_, fun d hd => ?_⟩, ?_⟩
    · rw [Ne, List.replicate_eq_nil_iff]
      omega
    · rw [(List.mem_replicate.1 hd).2]
      decide
    · rw [nines, String.toList_ofList, List.append_nil]
  exact ⟨_, by rw [placeholderDigits?, hat], List.length_replicate, h⟩

theorem named_nines (n : Nat) : Named (nines n) := by
  refine Gate.isNamed_text_iff.2 ⟨'N', ?_, by decide⟩
  rw [nines, String.toList_ofList, List.append_assoc]
  exact List.mem_append_left _ (by decide)

/-- A group whose id has one digit too many passes the gate, and the checks on it fault. -/
theorem assess_nines : ∃ r, Gate.passAll [(Action.group (nines 4301) 0.0 0.0).toValue] = .ok r ∧
    assess (.list r.actions) (.list ([].map .text)) = .error (.tooManyDigits (some 4301)) := by
  have hsteady : ∀ a ∈ [(Action.group (nines 4301) (0.0 : Float) 0.0).toValue],
      Gate.Steady a := by
    rw [List.forall_mem_singleton]
    exact Action.steady_of_fits (Action.fits_group (named_nines _) (by simp))
  have hadded : addedIds [(Action.group (nines 4301) (0.0 : Float) 0.0).toValue] =
      [nines 4301] := by
    rw [addedIds, List.filterMap_cons, addedId?_toValue]
    rfl
  refine ⟨_, Gate.passFrom_of_steady hsteady, ?_⟩
  obtain ⟨s, hids, -, -, -, hassess⟩ := assess_of_steady hsteady []
  obtain ⟨ds, hds, hlength, hlong⟩ := overlong_nines (n := 4301) (by decide)
  have hnumber : Placeholder.number ds = .error (.tooManyDigits (some 4301)) := by
    rw [Placeholder.number, hlength, if_pos hlong]
  refine hassess.trans ?_
  rw [conclude, hids, hadded, placeholderNumbers, hds]
  simp only [hnumber]
  rfl

end Quality

end Storyboard
