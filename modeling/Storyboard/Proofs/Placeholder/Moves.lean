import Mathlib.Data.List.Forall2
import Storyboard.Proofs.Placeholder.Numbers
/-!
# Values that differ in their numbers

Two values that are the same but for their placeholders, which are the first ones in the one and
the same number further on in the other.  The relation goes through lists and fields part by part,
and says what numbering the first value anew comes to.
-/

namespace Storyboard.Placeholder

variable {α : Type}

/-! ## Texts without placeholders -/

theorem marks_pieces_eq_nil_iff {cs : List Char} :
    marks (pieces cs) = [] ↔ ∀ t, t <:+ cs → at? t = none := by
  fun_induction pieces cs with
  | case1 cs ds rest h ih =>
      simp only [marks, reduceCtorEq, false_iff]
      intro hnone
      rw [hnone cs (List.suffix_refl cs)] at h
      simp at h
  | case2 h =>
      refine ⟨fun _ t ht => ?_, fun _ => rfl⟩
      rw [List.suffix_nil.1 ht]
      rfl
  | case3 c rest h ih =>
      rw [marks, ih]
      constructor
      · intro hrest t ht
        rcases List.suffix_cons_iff.1 ht with rfl | ht
        · exact h
        · exact hrest t ht
      · exact fun hall t ht => hall t (ht.trans (List.suffix_cons c rest))

/-- A part of a text without placeholders has none either. -/
theorem textRuns_of_infix {s t : String} (h : textRuns s = []) (hpart : t.toList <:+: s.toList) :
    textRuns t = [] := by
  obtain ⟨front, back, hsplit⟩ := hpart
  refine marks_pieces_eq_nil_iff.2 fun u hu => ?_
  cases hat : at? u with
  | none => rfl
  | some hit =>
      obtain ⟨ds, rest⟩ := hit
      obtain ⟨hdigits, rfl⟩ := at?_eq_some_iff.1 hat
      obtain ⟨before, hbefore⟩ := hu
      -- The placeholder stands in the whole text too, with more behind it.
      have hsuffix : opening ++ ds ++ closing ++ (rest ++ back) <:+ s.toList :=
        ⟨front ++ before, by rw [← hsplit, ← hbefore]; simp⟩
      have hhit : at? (opening ++ ds ++ closing ++ (rest ++ back)) = some (ds, rest ++ back) :=
        at?_eq_some_iff.2 ⟨hdigits, rfl⟩
      rw [marks_pieces_eq_nil_iff.1 h _ hsuffix] at hhit
      simp at hhit

/-- A text that lacks one of the characters that open a placeholder has none. -/
theorem textRuns_of_not_mem {s : String} {c : Char} (hc : c ∈ opening) (h : c ∉ s.toList) :
    textRuns s = [] := by
  refine marks_pieces_eq_nil_iff.2 fun t ht => ?_
  cases hat : at? t with
  | none => rfl
  | some hit =>
      obtain ⟨ds, rest⟩ := hit
      obtain ⟨-, rfl⟩ := at?_eq_some_iff.1 hat
      refine absurd (ht.subset ?_) h
      simp [hc]

theorem pieces_id_append (k : Nat) (s : String) :
    pieces (id k ++ s).toList = .mark (Decimal.digits k) :: pieces s.toList := by
  rw [String.toList_append, toList_id]
  exact pieces_of_at? (at?_eq_some_iff.2 ⟨areDigits_digits k, rfl⟩)

theorem textRuns_id_append (k : Nat) {s : String} (h : textRuns s = []) :
    textRuns (id k ++ s) = [Decimal.digits k] := by
  rw [textRuns, pieces_id_append, marks]
  exact congrArg _ h

theorem raisedText_id_append (n k : Nat) {s : String} (h : textRuns s = []) :
    raisedText n (id k ++ s) = id (k + n) ++ s := by
  have htail := raisedText_of_textRuns_eq_nil (k := n) h
  apply String.toList_injective
  rw [raisedText, pieces_id_append, String.toList_ofList, List.map_cons, Piece.raise,
    render_mark, valueOf_digits, String.toList_append, toList_id]
  rw [raisedText] at htail
  congr 1
  rw [← String.toList_ofList (l := render _), htail]

/-! ## Texts and values that are moved on -/

/-- The second text is the first one moved on by `n`, and the numbers in the first go up to
`last`. -/
structure TextMoves (n last : Nat) (s t : String) : Prop where
  raised : t = raisedText n s
  within : ∀ ds ∈ textRuns s, ∃ k, 0 < k ∧ k ≤ last ∧ ds = Decimal.digits k

/-- The second value is the first one moved on by `n`, and the numbers in the first go up to
`last`. -/
structure Moves (n last : Nat) (v w : Value α) : Prop where
  raised : w = raised n v
  within : ∀ ds ∈ runs v, ∃ k, 0 < k ∧ k ≤ last ∧ ds = Decimal.digits k

/-- The same fields, each moved on. -/
def FieldsMove (n last : Nat) : Fields α → Fields α → Prop :=
  List.Forall₂ fun f g => f.1 = g.1 ∧ Moves n last f.2 g.2

variable {n last : Nat}

theorem textMoves_id {k : Nat} (hpos : 0 < k) (h : k ≤ last) :
    TextMoves n last (id k) (id (n + k)) where
  raised := by rw [raisedText_id, Nat.add_comm]
  within := by simpa using ⟨k, hpos, h, rfl⟩

theorem textMoves_id_append {k : Nat} {s : String} (hpos : 0 < k) (h : k ≤ last)
    (hs : textRuns s = []) : TextMoves n last (id k ++ s) (id (n + k) ++ s) where
  raised := by rw [raisedText_id_append n k hs, Nat.add_comm]
  within := by simpa [textRuns_id_append k hs] using ⟨k, hpos, h, rfl⟩

theorem textMoves_of_textRuns {s : String} (h : textRuns s = []) : TextMoves n last s s where
  raised := (raisedText_of_textRuns_eq_nil h).symm
  within := by simp [h]

@[simp] theorem moves_text {s t : String} :
    Moves (α := α) n last (.text s) (.text t) ↔ TextMoves n last s t := by
  constructor
  · rintro ⟨hraised, hwithin⟩
    exact ⟨by simpa [raised] using hraised, hwithin⟩
  · rintro ⟨hraised, hwithin⟩
    exact ⟨by simpa [raised] using hraised, hwithin⟩

@[simp] theorem moves_real (x : α) : Moves n last (.real x) (.real x) :=
  ⟨rfl, by simp [runs]⟩

@[simp] theorem moves_null : Moves (α := α) n last .null .null :=
  ⟨rfl, by simp [runs]⟩

@[simp] theorem fieldsMove_nil : FieldsMove (α := α) n last [] [] := List.Forall₂.nil

@[simp] theorem fieldsMove_cons {f g : String × Value α} {fs gs : Fields α} :
    FieldsMove n last (f :: fs) (g :: gs) ↔
      (f.1 = g.1 ∧ Moves n last f.2 g.2) ∧ FieldsMove n last fs gs :=
  List.forall₂_cons

theorem fieldsMove_append {fs gs fs' gs' : Fields α} (h : FieldsMove n last fs gs)
    (h' : FieldsMove n last fs' gs') : FieldsMove n last (fs ++ fs') (gs ++ gs') :=
  List.rel_append h h'

theorem moves_object {fs gs : Fields α} (h : FieldsMove n last fs gs) :
    Moves n last (.object fs) (.object gs) := by
  have hboth : gs = raisedFields n fs ∧
      ∀ ds ∈ fieldRuns fs, ∃ k, 0 < k ∧ k ≤ last ∧ ds = Decimal.digits k := by
    induction h with
    | nil => exact ⟨rfl, by simp [fieldRuns]⟩
    | @cons f g fs gs hhead _ ih =>
        obtain ⟨name, v⟩ := f
        obtain ⟨name', w⟩ := g
        obtain ⟨rfl, hmove⟩ : name = name' ∧ Moves n last v w := hhead
        refine ⟨by rw [raisedFields, ← hmove.raised, ← ih.1], fun ds hds => ?_⟩
        rcases List.mem_append.1 hds with hds | hds
        · exact hmove.within ds hds
        · exact ih.2 ds hds
  exact ⟨by rw [raised, ← hboth.1], hboth.2⟩

theorem moves_list {vs ws : List (Value α)} (h : List.Forall₂ (Moves n last) vs ws) :
    Moves n last (.list vs) (.list ws) := by
  have hboth : ws = raisedItems n vs ∧
      ∀ ds ∈ itemRuns vs, ∃ k, 0 < k ∧ k ≤ last ∧ ds = Decimal.digits k := by
    induction h with
    | nil => exact ⟨rfl, by simp [itemRuns]⟩
    | cons hhead _ ih =>
        refine ⟨by rw [raisedItems, ← hhead.raised, ← ih.1], fun ds hds => ?_⟩
        rcases List.mem_append.1 hds with hds | hds
        · exact hhead.within ds hds
        · exact ih.2 ds hds
  exact ⟨by rw [raised, ← hboth.1], hboth.2⟩

theorem fieldsMove_set {fs gs : Fields α} {name : String} {v w : Value α}
    (h : FieldsMove n last fs gs) (hv : Moves n last v w) :
    FieldsMove n last (Fields.set fs name v) (Fields.set gs name w) := by
  induction h with
  | nil => exact fieldsMove_cons.2 ⟨⟨rfl, hv⟩, fieldsMove_nil⟩
  | @cons f g fs gs hhead htail ih =>
      obtain ⟨key, old⟩ := f
      obtain ⟨key', old'⟩ := g
      obtain ⟨rfl, hmove⟩ : key = key' ∧ Moves n last old old' := hhead
      by_cases hkey : key = name
      · simp only [Fields.set, hkey, if_true]
        exact fieldsMove_cons.2 ⟨⟨rfl, hv⟩, htail⟩
      · simp only [Fields.set, hkey, if_false]
        exact fieldsMove_cons.2 ⟨⟨rfl, hmove⟩, ih⟩

theorem fieldsMove_setAll {fs gs fs' gs' : Fields α} (h : FieldsMove n last fs gs)
    (h' : FieldsMove n last fs' gs') :
    FieldsMove n last (Fields.setAll fs fs') (Fields.setAll gs gs') := by
  induction h' generalizing fs gs with
  | nil => exact h
  | @cons f g fs' gs' hhead _ ih =>
      obtain ⟨name, v⟩ := f
      obtain ⟨name', w⟩ := g
      obtain ⟨rfl, hmove⟩ : name = name' ∧ Moves n last v w := hhead
      exact ih (fieldsMove_set h hmove)

/-! ## Numbering anew -/

theorem length_digits_le {k : Nat} (h : k < ceiling) :
    (Decimal.digits k).length ≤ Fault.digitLimit :=
  (length_digits_le_iff k).2 h

/-- Numbers up to `last` can be written once they are moved on by `n`. -/
theorem movable_of_within {dss : List (List Char)} (hroom : 0 < last → last + n < ceiling)
    (h : ∀ ds ∈ dss, ∃ k, 0 < k ∧ k ≤ last ∧ ds = Decimal.digits k) : Movable n dss := by
  intro ds hds
  obtain ⟨k, hpos, hk, rfl⟩ := h ds hds
  have hlast := hroom (by omega)
  rw [valueOf_digits]
  exact ⟨length_digits_le (by omega), by omega⟩

theorem shift_eq_error {k : Nat} {ps : List Piece} {fault : Fault} (hread : Readable (marks ps))
    (h : shift k ps = .error fault) : fault = .tooManyDigits none := by
  induction ps with
  | nil => simp [shift] at h
  | cons p ps ih =>
      cases p with
      | char c =>
          rw [shift, map_eq_error_iff] at h
          exact ih hread h
      | mark ds =>
          rw [marks, readable_cons] at hread
          have hnumber : number ds = .ok (valueOf ds) := number_eq_ok_iff.2 ⟨hread.1, rfl⟩
          rw [shift, hnumber, ok_bind, bind_eq_error_iff] at h
          rcases h with h | ⟨mark, -, h⟩
          · unfold write at h
            split at h
            · exact (Except.error.inj h).symm
            · simp at h
          · rcases bind_eq_error_iff.1 h with h | ⟨rest, -, h⟩
            · exact ih hread.2 h
            · simp at h

mutual

/-- Numbers that can be read are only lost in writing. -/
theorem shiftAll_eq_error {k : Nat} {v : Value α} {fault : Fault} (hread : Readable (runs v))
    (h : shiftAll k v = .error fault) : fault = .tooManyDigits none := by
  cases v with
  | text s =>
      rw [shiftAll, map_eq_error_iff, shiftText, map_eq_error_iff] at h
      exact shift_eq_error hread h
  | list items =>
      rw [shiftAll, map_eq_error_iff] at h
      exact shiftItems_eq_error hread h
  | object fields =>
      rw [shiftAll, map_eq_error_iff] at h
      exact shiftFields_eq_error hread h
  | _ => simp [shiftAll] at h

theorem shiftItems_eq_error {k : Nat} {items : List (Value α)} {fault : Fault}
    (hread : Readable (itemRuns items)) (h : shiftItems k items = .error fault) :
    fault = .tooManyDigits none := by
  cases items with
  | nil => simp [shiftItems] at h
  | cons v rest =>
      rw [itemRuns, readable_append] at hread
      rcases bind_eq_error_iff.1 h with h | ⟨w, -, h⟩
      · exact shiftAll_eq_error hread.1 h
      · rcases bind_eq_error_iff.1 h with h | ⟨ws, -, h⟩
        · exact shiftItems_eq_error hread.2 h
        · simp at h

theorem shiftFields_eq_error {k : Nat} {fields : List (String × Value α)} {fault : Fault}
    (hread : Readable (fieldRuns fields)) (h : shiftFields k fields = .error fault) :
    fault = .tooManyDigits none := by
  cases fields with
  | nil => simp [shiftFields] at h
  | cons head rest =>
      obtain ⟨name, v⟩ := head
      rw [fieldRuns, readable_append] at hread
      rcases bind_eq_error_iff.1 h with h | ⟨w, -, h⟩
      · exact shiftAll_eq_error hread.1 h
      · rcases bind_eq_error_iff.1 h with h | ⟨ws, -, h⟩
        · exact shiftFields_eq_error hread.2 h
        · simp at h

end

end Storyboard.Placeholder
