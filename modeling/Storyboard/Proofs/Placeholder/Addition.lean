import Storyboard.Proofs.Placeholder.Numbers
import Storyboard.Proofs.Prompt.Percent
/-!
# Numbering anew adds up

To move the placeholders of a value on twice is to move them on once by both distances.  Nothing
else of the value changes: the names of its fields, what is no text, and the characters around the
placeholders stay, each in its place.
-/

namespace Storyboard.Placeholder

open Text (isDigit digitValue?)

variable {α : Type}

/-! ## Moving on twice -/

theorem Piece.raise_raise (a b : Nat) (p : Piece) : (p.raise a).raise b = p.raise (a + b) := by
  cases p with
  | char c => rfl
  | mark ds => rw [raise, raise, raise, valueOf_digits, Nat.add_assoc]

theorem raisedText_raisedText (a b : Nat) (s : String) :
    raisedText b (raisedText a s) = raisedText (a + b) s := by
  rw [raisedText, pieces_raisedText, List.map_map, raisedText]
  exact congrArg (fun ps => String.ofList (render ps))
    (List.map_congr_left fun p _ => p.raise_raise a b)

mutual

theorem raised_raised (a b : Nat) (v : Value α) : raised b (raised a v) = raised (a + b) v := by
  cases v with
  | text s => simp only [raised, raisedText_raisedText]
  | list items => simp only [raised, raisedItems_raisedItems a b items]
  | object fields => simp only [raised, raisedFields_raisedFields a b fields]
  | _ => rfl

theorem raisedItems_raisedItems (a b : Nat) (items : List (Value α)) :
    raisedItems b (raisedItems a items) = raisedItems (a + b) items := by
  cases items with
  | nil => rfl
  | cons v rest =>
      simp only [raisedItems, raised_raised a b v, raisedItems_raisedItems a b rest]

theorem raisedFields_raisedFields (a b : Nat) (fields : List (String × Value α)) :
    raisedFields b (raisedFields a fields) = raisedFields (a + b) fields := by
  cases fields with
  | nil => rfl
  | cons head rest =>
      obtain ⟨name, v⟩ := head
      simp only [raisedFields, raised_raised a b v, raisedFields_raisedFields a b rest]

end

/-- A value numbered anew; an offset of zero leaves even the zeros before a number. -/
def renumbered (k : Nat) (v : Value α) : Value α := if k = 0 then v else raised k v

theorem renumber_of_movable {k : Nat} {v : Value α} (h : Movable k (runs v)) :
    renumber k v = .ok (renumbered k v) := by
  rcases Nat.eq_zero_or_pos k with rfl | hpos
  · rfl
  · have hk : (k : Int) ≠ 0 := by omega
    rw [renumber, if_neg hk, renumbered, if_neg (by omega)]
    exact shiftAll_eq_ok_iff.2 ⟨h, rfl⟩

theorem renumbered_renumbered (a b : Nat) (v : Value α) :
    renumbered b (renumbered a v) = renumbered (a + b) v := by
  unfold renumbered
  by_cases ha : a = 0
  · simp [ha]
  · by_cases hb : b = 0
    · simp [ha, hb]
    · simp [ha, hb, raised_raised]

/-! ## How high the numbers come -/

theorem valueOf_lt (ds : List Char) : valueOf ds < 10 ^ ds.length := by
  have hdigits : ∀ d ∈ ds.filter isDigit, isDigit d = true := fun d hd => List.of_mem_filter hd
  have hkept : valueOf ds = Measure.digitsValue (ds.filter isDigit) := by
    rw [valueOf, Measure.digitsValue, List.filterMap_filter]
    congr 2
    funext d
    cases h : digitValue? d <;> simp [isDigit, h]
  calc valueOf ds = Measure.digitsValue (ds.filter isDigit) := hkept
    _ < 10 ^ (ds.filter isDigit).length := Measure.digitsValue_lt hdigits
    _ ≤ 10 ^ ds.length := Nat.pow_le_pow_right (by decide) (List.length_filter_le _ _)

theorem runs_renumbered (k : Nat) (v : Value α) :
    runs (renumbered k v) =
      if k = 0 then runs v else (runs v).map fun ds => Decimal.digits (valueOf ds + k) := by
  unfold renumbered
  split
  · rfl
  · exact runs_raised k v

theorem peak_raise (k : Nat) {dss : List (List Char)} (h : dss ≠ []) :
    peak (dss.map fun ds => Decimal.digits (valueOf ds + k)) = peak dss + k := by
  induction dss with
  | nil => exact absurd rfl h
  | cons ds rest ih =>
      rw [List.map_cons, peak, peak, valueOf_digits]
      by_cases hrest : rest = []
      · simp [hrest, peak]
      · rw [ih hrest]
        omega

/-- The highest number moves on with the others. -/
theorem peak_renumbered (k : Nat) (v : Value α) :
    peak (runs (renumbered k v)) = if runs v = [] then 0 else peak (runs v) + k := by
  rw [runs_renumbered]
  by_cases hnone : runs v = []
  · simp [hnone, peak]
  · rw [if_neg hnone]
    split
    · rename_i hk
      rw [hk, Nat.add_zero]
    · exact peak_raise k hnone

theorem movable_renumbered {a b : Nat} {v : Value α} (h : Movable (a + b) (runs v)) :
    Movable b (runs (renumbered a v)) := by
  rw [runs_renumbered]
  split
  · rename_i ha
    rwa [ha, Nat.zero_add] at h
  · intro es hes
    obtain ⟨ds, hds, rfl⟩ := List.mem_map.1 hes
    obtain ⟨-, hroom⟩ := h ds hds
    rw [valueOf_digits]
    exact ⟨(length_digits_le_iff _).2 (by omega), by omega⟩

/-! ## What stays -/

/-- The same piece, or a placeholder whose number is `k` further on. -/
inductive Piece.Ahead (k : Nat) : Piece → Piece → Prop
  | char (c : Char) : Ahead k (.char c) (.char c)
  | mark {ds es : List Char} (h : valueOf es = valueOf ds + k) : Ahead k (.mark ds) (.mark es)

/-- Both texts are rows of the same characters and as many placeholders, in the same order, and
are read as such; the numbers in the second text are `k` further on. -/
def TextAhead (k : Nat) (s t : String) : Prop :=
  ∃ ps qs, s.toList = render ps ∧ pieces s.toList = ps ∧
    t.toList = render qs ∧ pieces t.toList = qs ∧ List.Forall₂ (Piece.Ahead k) ps qs

/-- The same value but for the numbers in its texts, which are `k` further on. -/
inductive Ahead (k : Nat) : Value α → Value α → Prop
  | null : Ahead k .null .null
  | bool (b : Bool) : Ahead k (.bool b) (.bool b)
  | int (n : Int) : Ahead k (.int n) (.int n)
  | real (x : α) : Ahead k (.real x) (.real x)
  | text {s t : String} (h : TextAhead k s t) : Ahead k (.text s) (.text t)
  | list {vs ws : List (Value α)} (h : List.Forall₂ (Ahead k) vs ws) :
    Ahead k (.list vs) (.list ws)
  | object {fs gs : Fields α} (names : gs.map (·.1) = fs.map (·.1))
      (values : List.Forall₂ (Ahead k) (fs.map (·.2)) (gs.map (·.2))) :
    Ahead k (.object fs) (.object gs)

theorem textAhead_of_map {k : Nat} {s t : String} {f : Piece → Piece}
    (hpieces : pieces t.toList = (pieces s.toList).map f) (hf : ∀ p, Piece.Ahead k p (f p)) :
    TextAhead k s t := by
  refine ⟨_, _, (render_pieces _).symm, rfl, (render_pieces _).symm, rfl, ?_⟩
  rw [hpieces, List.forall₂_map_right_iff]
  exact List.forall₂_same.2 fun p _ => hf p

theorem textAhead_raisedText (k : Nat) (s : String) : TextAhead k s (raisedText k s) := by
  refine textAhead_of_map (pieces_raisedText k s) fun p => ?_
  cases p with
  | char c => exact .char c
  | mark ds => exact .mark (valueOf_digits _)

theorem textAhead_refl (s : String) : TextAhead 0 s s := by
  refine textAhead_of_map (List.map_id _).symm fun p => ?_
  cases p with
  | char c => exact .char c
  | mark ds => exact .mark rfl

theorem raisedFields_eq_map (k : Nat) (fields : Fields α) :
    raisedFields k fields = fields.map fun f => (f.1, raised k f.2) := by
  induction fields with
  | nil => rfl
  | cons head rest ih => rw [raisedFields, ih, List.map_cons]

theorem renumbered_list (k : Nat) (items : List (Value α)) :
    renumbered k (.list items) = .list (items.map (renumbered k)) := by
  by_cases hk : k = 0
  · have hsame : renumbered k = (fun v : Value α => v) := funext fun v => if_pos hk
    rw [hsame, List.map_id']
  · have hraised : renumbered k = (raised k : Value α → Value α) := funext fun v => if_neg hk
    rw [hraised, raised, raisedItems_eq_map]

theorem renumbered_object (k : Nat) (fields : Fields α) :
    renumbered k (.object fields) = .object (fields.map fun f => (f.1, renumbered k f.2)) := by
  by_cases hk : k = 0
  · have hsame : renumbered k = (fun v : Value α => v) := funext fun v => if_pos hk
    simp [hsame]
  · have hraised : renumbered k = (raised k : Value α → Value α) := funext fun v => if_neg hk
    rw [hraised, raised, raisedFields_eq_map]

theorem ahead_text (k : Nat) (s : String) :
    Ahead k (.text s : Value α) (renumbered k (.text s)) := by
  unfold renumbered
  split
  · rename_i hk
    rw [hk]
    exact .text (textAhead_refl s)
  · exact .text (textAhead_raisedText k s)

mutual

theorem ahead_renumbered (k : Nat) (v : Value α) : Ahead k v (renumbered k v) := by
  cases v with
  | text s => exact ahead_text k s
  | list items =>
      rw [renumbered_list]
      exact .list (ahead_items k items)
  | object fields =>
      rw [renumbered_object]
      refine .object (by simp) ?_
      rw [List.map_map]
      exact ahead_fields k fields
  | null => simpa [renumbered, raised] using Ahead.null
  | bool b => simpa [renumbered, raised] using Ahead.bool b
  | int n => simpa [renumbered, raised] using Ahead.int n
  | real x => simpa [renumbered, raised] using Ahead.real x

theorem ahead_items (k : Nat) (items : List (Value α)) :
    List.Forall₂ (Ahead k) items (items.map (renumbered k)) := by
  cases items with
  | nil => exact .nil
  | cons v rest => exact .cons (ahead_renumbered k v) (ahead_items k rest)

theorem ahead_fields (k : Nat) (fields : Fields α) :
    List.Forall₂ (Ahead k) (fields.map (·.2)) (fields.map fun f => renumbered k f.2) := by
  cases fields with
  | nil => exact .nil
  | cons head rest =>
      obtain ⟨name, v⟩ := head
      exact .cons (ahead_renumbered k v) (ahead_fields k rest)

end

/-! ## The law -/

theorem lt_of_length_digits {n d : Nat} (h : (Decimal.digits n).length ≤ d) (hd : 0 < d) :
    n < 10 ^ d :=
  (Nat.length_toDigits_le_iff (by decide) hd).1 h

/-- Numbers that are short of the limit by a digit leave room for two more of them. -/
theorem movable_of_short {d : Nat} (hd : d < Fault.digitLimit) {v : Value α}
    (hv : ∀ ds ∈ runs v, ds.length ≤ d) {a b : Nat} (ha : a < 10 ^ d) (hb : b < 10 ^ d) :
    Movable (a + b) (runs v) := by
  have hceiling : 10 ^ d * 10 ≤ ceiling := by
    unfold ceiling
    generalize Fault.digitLimit = limit at hd
    exact Nat.pow_le_pow_right (n := 10) (by decide) hd
  intro ds hds
  have hvalue : valueOf ds < 10 ^ d :=
    lt_of_lt_of_le (valueOf_lt ds) (Nat.pow_le_pow_right (by decide) (hv ds hds))
  exact ⟨(hv ds hds).trans hd.le, by omega⟩

/-- Numbering a value anew by one distance and then by another is numbering it anew by both at
once.  Its highest number moves on with the others if it has any, and nothing but the numbers
changes. -/
theorem renumber_renumber {v : Value α} {a b : Nat} (hv : ∀ ds ∈ runs v, ds.length ≤ 4000)
    (ha : (Decimal.digits a).length ≤ 4000) (hb : (Decimal.digits b).length ≤ 4000) :
    ∃ w u n, renumber a v = .ok w ∧ renumber b w = .ok u ∧ renumber (a + b) v = .ok u ∧
      highest v = .ok n ∧ highest w = .ok (if runs v = [] then 0 else n + a) ∧ Ahead a v w := by
  have hboth : Movable (a + b) (runs v) :=
    movable_of_short (by decide) hv (lt_of_length_digits ha (by decide))
      (lt_of_length_digits hb (by decide))
  have hfirst : Movable a (runs v) := fun ds hds =>
    ⟨(hboth ds hds).1, lt_of_le_of_lt (by omega) (hboth ds hds).2⟩
  have hsecond := movable_renumbered hboth
  refine ⟨renumbered a v, renumbered (a + b) v, peak (runs v), renumber_of_movable hfirst, ?_,
    renumber_of_movable hboth, ?_, ?_, ahead_renumbered a v⟩
  · rw [renumber_of_movable hsecond, renumbered_renumbered]
  · exact highest_eq_ok_iff.2 ⟨fun ds hds => (hboth ds hds).1, rfl⟩
  · rw [← peak_renumbered]
    exact highest_eq_ok_iff.2 ⟨fun ds hds => (hsecond ds hds).1, rfl⟩

/-- A number with a zero before it and a third brace before that, a second number in the same text,
one in the name of a field, and what only looks like one. -/
def gradient : Value Float := .object [
  ("id", .text "\x7b\x7b\x7bNEW_ID_02\x7d\x7d-\x7b\x7bNEW_ID_9\x7d\x7d"),
  ("\x7b\x7bNEW_ID_1\x7d\x7d", .list [.text "\x7b\x7bNEW_ID_x\x7d\x7d", .int 3])]

theorem renumber_renumber_gradient :
    (∀ ds ∈ runs gradient, ds.length ≤ 4000) ∧ (Decimal.digits 5).length ≤ 4000 ∧
      (Decimal.digits 90).length ≤ 4000 ∧
      ∃ w u, renumber 5 gradient = .ok w ∧ renumber 90 w = .ok u ∧
        renumber 95 gradient = .ok u ∧ highest w = .ok 14 ∧ Ahead 5 gradient w := by
  have hshort : ∀ ds ∈ runs gradient, ds.length ≤ 4000 := by decide +kernel
  have hfive : (Decimal.digits 5).length ≤ 4000 := by decide +kernel
  have hninety : (Decimal.digits 90).length ≤ 4000 := by decide +kernel
  have hsome : runs gradient ≠ [] := by decide +kernel
  have hnine : highest gradient = .ok 9 := by decide +kernel
  obtain ⟨w, u, n, hfirst, hsecond, hboth, hbefore, hafter, hahead⟩ :=
    renumber_renumber hshort hfive hninety
  obtain rfl : 9 = n := Except.ok.inj (hnine.symm.trans hbefore)
  rw [if_neg hsome] at hafter
  exact ⟨hshort, hfive, hninety, w, u, hfirst, hsecond, hboth, hafter, hahead⟩

end Storyboard.Placeholder
