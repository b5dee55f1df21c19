import Storyboard.Proofs.Except
import Storyboard.Proofs.Placeholder.Pieces
/-!
# The numbers in a value

The placeholders that occur anywhere in a value, their highest number, and what moving them on
comes to.  Moving on either fails on a number that cannot be read or written, or moves every
placeholder by the same distance and changes nothing else.
-/

namespace Storyboard.Placeholder

variable {α : Type}

/-! ## Numbers of pieces -/

theorem number_eq_ok_iff {ds : List Char} {n : Nat} :
    number ds = .ok n ↔ ds.length ≤ Fault.digitLimit ∧ n = valueOf ds := by
  unfold number
  split
  · simp only [reduceCtorEq, false_iff]
    omega
  · simp only [Except.ok.injEq]
    constructor
    · rintro rfl
      exact ⟨by omega, rfl⟩
    · rintro ⟨-, rfl⟩
      rfl

theorem write_natCast_eq_ok_iff {n : Nat} {cs : List Char} :
    write (n : Int) = .ok cs ↔ n < ceiling ∧ cs = opening ++ Decimal.digits n ++ closing := by
  have hlimit := length_digits_le_iff n
  unfold write
  rw [Int.natAbs_natCast, ofInt_natCast]
  split
  · simp only [reduceCtorEq, false_iff]
    omega
  · simp only [Except.ok.injEq]
    constructor
    · rintro rfl
      exact ⟨by omega, rfl⟩
    · rintro ⟨-, rfl⟩
      rfl

theorem thousand_le_ceiling : 1000 ≤ ceiling := by
  have hdigits : 3 ≤ Fault.digitLimit := by
    unfold Fault.digitLimit
    omega
  exact Nat.pow_le_pow_right (n := 10) (by omega) hdigits

/-- The highest number that some runs of digits denote. -/
def peak : List (List Char) → Nat
  | [] => 0
  | ds :: rest => max (valueOf ds) (peak rest)

@[simp] theorem peak_append (xs ys : List (List Char)) :
    peak (xs ++ ys) = max (peak xs) (peak ys) := by
  induction xs with
  | nil => simp [peak]
  | cons ds xs ih => simp only [List.cons_append, peak, ih, Nat.max_assoc]

theorem valueOf_le_peak {ds : List Char} {runs : List (List Char)} (h : ds ∈ runs) :
    valueOf ds ≤ peak runs := by
  induction runs with
  | nil => simp at h
  | cons e rest ih =>
      rcases List.mem_cons.1 h with rfl | h
      · exact Nat.le_max_left _ _
      · exact Nat.le_trans (ih h) (Nat.le_max_right _ _)

theorem peak_le_iff {runs : List (List Char)} {n : Nat} :
    peak runs ≤ n ↔ ∀ ds ∈ runs, valueOf ds ≤ n := by
  induction runs with
  | nil => simp [peak]
  | cons ds rest ih => rw [peak, Nat.max_le, ih, List.forall_mem_cons]

theorem foldl_max_valueOf (runs : List (List Char)) (m : Nat) :
    (runs.map valueOf).foldl max m = max m (peak runs) := by
  induction runs generalizing m with
  | nil => simp [peak]
  | cons ds rest ih =>
      rw [List.map_cons, List.foldl_cons, ih, peak, Nat.max_assoc]

/-- Runs of digits that are short enough to be read. -/
def Readable (runs : List (List Char)) : Prop := ∀ ds ∈ runs, ds.length ≤ Fault.digitLimit

/-- Runs of digits that can be read, and whose numbers moved on by `k` can be written. -/
def Movable (k : Nat) (runs : List (List Char)) : Prop :=
  ∀ ds ∈ runs, ds.length ≤ Fault.digitLimit ∧ valueOf ds + k < ceiling

@[simp] theorem readable_nil : Readable [] := by simp [Readable]

@[simp] theorem readable_cons {ds : List Char} {rest : List (List Char)} :
    Readable (ds :: rest) ↔ ds.length ≤ Fault.digitLimit ∧ Readable rest := by
  simp [Readable]

@[simp] theorem readable_append {xs ys : List (List Char)} :
    Readable (xs ++ ys) ↔ Readable xs ∧ Readable ys :=
  List.forall_mem_append

@[simp] theorem movable_nil (k : Nat) : Movable k [] := by simp [Movable]

@[simp] theorem movable_cons {k : Nat} {ds : List Char} {rest : List (List Char)} :
    Movable k (ds :: rest) ↔
      (ds.length ≤ Fault.digitLimit ∧ valueOf ds + k < ceiling) ∧ Movable k rest := by
  simp [Movable]

@[simp] theorem movable_append {k : Nat} {xs ys : List (List Char)} :
    Movable k (xs ++ ys) ↔ Movable k xs ∧ Movable k ys :=
  List.forall_mem_append

theorem movable_of_readable {k : Nat} {runs : List (List Char)} (h : Readable runs)
    (hpeak : peak runs + k < ceiling) : Movable k runs := by
  intro ds hds
  have hle := valueOf_le_peak hds
  exact ⟨h ds hds, by omega⟩

theorem numbers_eq_ok_iff {ps : List Piece} {ns : List Nat} :
    numbers ps = .ok ns ↔ Readable (marks ps) ∧ ns = (marks ps).map valueOf := by
  induction ps generalizing ns with
  | nil => simp [numbers, marks, eq_comm]
  | cons p ps ih =>
      cases p with
      | char c => exact ih
      | mark ds =>
          simp only [numbers, marks, bind_eq_ok_iff, number_eq_ok_iff, ih, pure_eq_ok,
            Except.ok.injEq, readable_cons, List.map_cons]
          constructor
          · rintro ⟨n, ⟨hds, rfl⟩, ns, ⟨hrest, rfl⟩, rfl⟩
            exact ⟨⟨hds, hrest⟩, rfl⟩
          · rintro ⟨⟨hds, hrest⟩, rfl⟩
            exact ⟨_, ⟨hds, rfl⟩, _, ⟨hrest, rfl⟩, rfl⟩

theorem shift_eq_ok_iff {k : Nat} {ps : List Piece} {cs : List Char} :
    shift k ps = .ok cs ↔ Movable k (marks ps) ∧ cs = render (ps.map (Piece.raise k)) := by
  induction ps generalizing cs with
  | nil => simp [shift, marks, eq_comm]
  | cons p ps ih =>
      cases p with
      | char c =>
          simp only [shift, marks, map_eq_ok_iff, ih, List.map_cons, Piece.raise, render_char]
          constructor
          · rintro ⟨cs, ⟨hrest, rfl⟩, rfl⟩
            exact ⟨hrest, rfl⟩
          · rintro ⟨hrest, rfl⟩
            exact ⟨_, ⟨hrest, rfl⟩, rfl⟩
      | mark ds =>
          simp only [shift, marks, bind_eq_ok_iff, number_eq_ok_iff, ih, pure_eq_ok,
            Except.ok.injEq, movable_cons, List.map_cons, Piece.raise, render_mark]
          constructor
          · rintro ⟨n, ⟨hds, rfl⟩, mark, hmark, cs, ⟨hrest, rfl⟩, rfl⟩
            rw [← Int.natCast_add, write_natCast_eq_ok_iff] at hmark
            exact ⟨⟨⟨hds, hmark.1⟩, hrest⟩, by rw [hmark.2]⟩
          · rintro ⟨⟨⟨hds, hroom⟩, hrest⟩, rfl⟩
            refine ⟨_, ⟨hds, rfl⟩, _, ?_, _, ⟨hrest, rfl⟩, rfl⟩
            rw [← Int.natCast_add, write_natCast_eq_ok_iff]
            exact ⟨hroom, rfl⟩

theorem supply_eq_ok_iff {n last : Nat} :
    supply n last = .ok () ↔ (n < last → last < ceiling) := by
  unfold supply
  split
  · simp only [reduceCtorEq, false_iff]
    omega
  · simp only [true_iff]
    omega

/-! ## Texts -/

/-- The digits of the placeholders in a text. -/
def textRuns (s : String) : List (List Char) := marks (pieces s.toList)

theorem highestIn_eq_ok_iff {s : String} {n : Nat} :
    highestIn s = .ok n ↔ Readable (textRuns s) ∧ n = peak (textRuns s) := by
  unfold highestIn
  simp only [map_eq_ok_iff, numbers_eq_ok_iff]
  constructor
  · rintro ⟨ns, ⟨hread, rfl⟩, rfl⟩
    exact ⟨hread, by rw [foldl_max_valueOf, Nat.zero_max]; rfl⟩
  · rintro ⟨hread, rfl⟩
    exact ⟨_, ⟨hread, rfl⟩, by rw [foldl_max_valueOf, Nat.zero_max]; rfl⟩

theorem shiftText_eq_ok_iff {k : Nat} {s t : String} :
    shiftText k s = .ok t ↔ Movable k (textRuns s) ∧ t = raisedText k s := by
  unfold shiftText
  simp only [map_eq_ok_iff, shift_eq_ok_iff]
  constructor
  · rintro ⟨cs, ⟨hmove, rfl⟩, rfl⟩
    exact ⟨hmove, rfl⟩
  · rintro ⟨hmove, rfl⟩
    exact ⟨_, ⟨hmove, rfl⟩, rfl⟩

theorem textRuns_raisedText (k : Nat) (s : String) :
    textRuns (raisedText k s) =
      (textRuns s).map fun ds => Decimal.digits (valueOf ds + k) := by
  rw [textRuns, pieces_raisedText, marks_raise, textRuns]

/-! ## Values -/

mutual

/-- The digits of the placeholders in the texts of a value, in order. -/
def runs : Value α → List (List Char)
  | .text s => textRuns s
  | .list items => itemRuns items
  | .object fields => fieldRuns fields
  | _ => []

def itemRuns : List (Value α) → List (List Char)
  | [] => []
  | v :: rest => runs v ++ itemRuns rest

def fieldRuns : List (String × Value α) → List (List Char)
  | [] => []
  | (_, v) :: rest => runs v ++ fieldRuns rest

end

mutual

/-- A value with every placeholder moved on by `k`. -/
def raised (k : Nat) : Value α → Value α
  | .text s => .text (raisedText k s)
  | .list items => .list (raisedItems k items)
  | .object fields => .object (raisedFields k fields)
  | .null => .null
  | .bool b => .bool b
  | .int n => .int n
  | .real x => .real x

def raisedItems (k : Nat) : List (Value α) → List (Value α)
  | [] => []
  | v :: rest => raised k v :: raisedItems k rest

def raisedFields (k : Nat) : List (String × Value α) → List (String × Value α)
  | [] => []
  | (name, v) :: rest => (name, raised k v) :: raisedFields k rest

end

theorem raisedItems_eq_map (k : Nat) (items : List (Value α)) :
    raisedItems k items = items.map (raised k) := by
  induction items with
  | nil => rfl
  | cons v rest ih => rw [raisedItems, ih, List.map_cons]

theorem get?_raisedFields (k : Nat) (fields : Fields α) (name : String) :
    Fields.get? (raisedFields k fields) name = (Fields.get? fields name).map (raised k) := by
  induction fields with
  | nil => rfl
  | cons head rest ih =>
      obtain ⟨key, v⟩ := head
      by_cases hkey : key = name <;> simp [raisedFields, hkey, ih]

theorem field?_raised (k : Nat) (v : Value α) (name : String) :
    (raised k v).field? name = (v.field? name).map (raised k) := by
  cases v with
  | object fields => exact get?_raisedFields k fields name
  | _ => rfl

theorem text?_raised (k : Nat) (v : Value α) :
    (raised k v).text? = v.text?.map (raisedText k) := by
  cases v <;> rfl

theorem kind_raised (k : Nat) (v : Value α) : (raised k v).kind = v.kind := by
  cases v <;> rfl

mutual

theorem highest_eq_ok_iff {v : Value α} {n : Nat} :
    highest v = .ok n ↔ Readable (runs v) ∧ n = peak (runs v) := by
  cases v with
  | text s => exact highestIn_eq_ok_iff
  | list items => exact highestItem_eq_ok_iff
  | object fields => exact highestField_eq_ok_iff
  | _ => simp [highest, runs, peak, eq_comm]

theorem highestItem_eq_ok_iff {items : List (Value α)} {n : Nat} :
    highestItem items = .ok n ↔ Readable (itemRuns items) ∧ n = peak (itemRuns items) := by
  cases items with
  | nil => simp [highestItem, itemRuns, peak, eq_comm]
  | cons v rest =>
      simp only [highestItem, itemRuns, bind_eq_ok_iff, highest_eq_ok_iff, highestItem_eq_ok_iff,
        pure_eq_ok, Except.ok.injEq, readable_append, peak_append]
      constructor
      · rintro ⟨n, ⟨hv, rfl⟩, m, ⟨hrest, rfl⟩, rfl⟩
        exact ⟨⟨hv, hrest⟩, rfl⟩
      · rintro ⟨⟨hv, hrest⟩, rfl⟩
        exact ⟨_, ⟨hv, rfl⟩, _, ⟨hrest, rfl⟩, rfl⟩

theorem highestField_eq_ok_iff {fields : List (String × Value α)} {n : Nat} :
    highestField fields = .ok n ↔ Readable (fieldRuns fields) ∧ n = peak (fieldRuns fields) := by
  cases fields with
  | nil => simp [highestField, fieldRuns, peak, eq_comm]
  | cons head rest =>
      obtain ⟨name, v⟩ := head
      simp only [highestField, fieldRuns, bind_eq_ok_iff, highest_eq_ok_iff,
        highestField_eq_ok_iff, pure_eq_ok, Except.ok.injEq, readable_append, peak_append]
      constructor
      · rintro ⟨n, ⟨hv, rfl⟩, m, ⟨hrest, rfl⟩, rfl⟩
        exact ⟨⟨hv, hrest⟩, rfl⟩
      · rintro ⟨⟨hv, hrest⟩, rfl⟩
        exact ⟨_, ⟨hv, rfl⟩, _, ⟨hrest, rfl⟩, rfl⟩

end

mutual

theorem shiftAll_eq_ok_iff {k : Nat} {v w : Value α} :
    shiftAll k v = .ok w ↔ Movable k (runs v) ∧ w = raised k v := by
  cases v with
  | text s =>
      simp only [shiftAll, runs, raised, map_eq_ok_iff, shiftText_eq_ok_iff]
      constructor
      · rintro ⟨t, ⟨hmove, rfl⟩, rfl⟩
        exact ⟨hmove, rfl⟩
      · rintro ⟨hmove, rfl⟩
        exact ⟨_, ⟨hmove, rfl⟩, rfl⟩
  | list items =>
      simp only [shiftAll, runs, raised, map_eq_ok_iff, shiftItems_eq_ok_iff]
      constructor
      · rintro ⟨t, ⟨hmove, rfl⟩, rfl⟩
        exact ⟨hmove, rfl⟩
      · rintro ⟨hmove, rfl⟩
        exact ⟨_, ⟨hmove, rfl⟩, rfl⟩
  | object fields =>
      simp only [shiftAll, runs, raised, map_eq_ok_iff, shiftFields_eq_ok_iff]
      constructor
      · rintro ⟨t, ⟨hmove, rfl⟩, rfl⟩
        exact ⟨hmove, rfl⟩
      · rintro ⟨hmove, rfl⟩
        exact ⟨_, ⟨hmove, rfl⟩, rfl⟩
  | _ => simp [shiftAll, runs, raised, eq_comm]

theorem shiftItems_eq_ok_iff {k : Nat} {items ws : List (Value α)} :
    shiftItems k items = .ok ws ↔ Movable k (itemRuns items) ∧ ws = raisedItems k items := by
  cases items with
  | nil => simp [shiftItems, itemRuns, raisedItems, eq_comm]
  | cons v rest =>
      simp only [shiftItems, itemRuns, raisedItems, bind_eq_ok_iff, shiftAll_eq_ok_iff,
        shiftItems_eq_ok_iff, pure_eq_ok, Except.ok.injEq, movable_append]
      constructor
      · rintro ⟨w, ⟨hv, rfl⟩, ws, ⟨hrest, rfl⟩, rfl⟩
        exact ⟨⟨hv, hrest⟩, rfl⟩
      · rintro ⟨⟨hv, hrest⟩, rfl⟩
        exact ⟨_, ⟨hv, rfl⟩, _, ⟨hrest, rfl⟩, rfl⟩

theorem shiftFields_eq_ok_iff {k : Nat} {fields ws : List (String × Value α)} :
    shiftFields k fields = .ok ws ↔
      Movable k (fieldRuns fields) ∧ ws = raisedFields k fields := by
  cases fields with
  | nil => simp [shiftFields, fieldRuns, raisedFields, eq_comm]
  | cons head rest =>
      obtain ⟨name, v⟩ := head
      simp only [shiftFields, fieldRuns, raisedFields, bind_eq_ok_iff, shiftAll_eq_ok_iff,
        shiftFields_eq_ok_iff, pure_eq_ok, Except.ok.injEq, movable_append]
      constructor
      · rintro ⟨w, ⟨hv, rfl⟩, ws, ⟨hrest, rfl⟩, rfl⟩
        exact ⟨⟨hv, hrest⟩, rfl⟩
      · rintro ⟨⟨hv, hrest⟩, rfl⟩
        exact ⟨_, ⟨hv, rfl⟩, _, ⟨hrest, rfl⟩, rfl⟩

end

mutual

theorem runs_raised (k : Nat) (v : Value α) :
    runs (raised k v) = (runs v).map fun ds => Decimal.digits (valueOf ds + k) := by
  cases v with
  | text s => exact textRuns_raisedText k s
  | list items => exact itemRuns_raised k items
  | object fields => exact fieldRuns_raised k fields
  | _ => rfl

theorem itemRuns_raised (k : Nat) (items : List (Value α)) :
    itemRuns (raisedItems k items) =
      (itemRuns items).map fun ds => Decimal.digits (valueOf ds + k) := by
  cases items with
  | nil => rfl
  | cons v rest =>
      rw [raisedItems, itemRuns, itemRuns, List.map_append, runs_raised, itemRuns_raised]

theorem fieldRuns_raised (k : Nat) (fields : List (String × Value α)) :
    fieldRuns (raisedFields k fields) =
      (fieldRuns fields).map fun ds => Decimal.digits (valueOf ds + k) := by
  cases fields with
  | nil => rfl
  | cons head rest =>
      obtain ⟨name, v⟩ := head
      rw [raisedFields, fieldRuns, fieldRuns, List.map_append, runs_raised, fieldRuns_raised]

end

/-- The numbers of the placeholders in a list of values. -/
def occurring (items : List (Value α)) : List Nat := (itemRuns items).map valueOf

/-- Moving a list of values on moves each number on by as much. -/
theorem occurring_raisedItems (k : Nat) (items : List (Value α)) :
    occurring (raisedItems k items) = (occurring items).map (· + k) := by
  rw [occurring, itemRuns_raised, occurring, List.map_map, List.map_map]
  congr 1
  funext ds
  exact valueOf_digits _

theorem le_peak_of_mem_occurring {items : List (Value α)} {k : Nat} (h : k ∈ occurring items) :
    k ≤ peak (itemRuns items) := by
  obtain ⟨ds, hds, rfl⟩ := List.mem_map.1 h
  exact valueOf_le_peak hds

/-! ## Texts that are a placeholder, and texts without one -/

/-- The number of a text that is one placeholder and nothing else. -/
def wholeNumber? (s : String) : Option Nat :=
  match pieces s.toList with
  | [.mark ds] => some (valueOf ds)
  | _ => none

theorem wholeNumber?_raisedText (k : Nat) (s : String) :
    wholeNumber? (raisedText k s) = (wholeNumber? s).map (· + k) := by
  unfold wholeNumber?
  rw [pieces_raisedText]
  rcases pieces s.toList with _ | ⟨c | ds, _ | ⟨p, ps⟩⟩ <;> simp [Piece.raise]

theorem toList_id (n : Nat) : (id n).toList = opening ++ Decimal.digits n ++ closing := by
  rw [id, String.toList_ofList, ofInt_natCast]

theorem pieces_id (n : Nat) : pieces (id n).toList = [.mark (Decimal.digits n)] := by
  have hsettled : Settled [.mark (Decimal.digits n)] := ⟨areDigits_digits n, trivial⟩
  have hrender : (id n).toList = render [.mark (Decimal.digits n)] := by
    rw [toList_id, render_mark, render_nil, List.append_nil]
  rw [hrender, pieces_render hsettled]

@[simp] theorem wholeNumber?_id (n : Nat) : wholeNumber? (id n) = some n := by
  simp [wholeNumber?, pieces_id]

@[simp] theorem textRuns_id (n : Nat) : textRuns (id n) = [Decimal.digits n] := by
  simp [textRuns, pieces_id, marks]

@[simp] theorem raisedText_id (k n : Nat) : raisedText k (id n) = id (n + k) := by
  apply String.toList_injective
  rw [raisedText, pieces_id, String.toList_ofList, toList_id]
  simp [Piece.raise]

theorem id_injective : Function.Injective id := by
  intro m n h
  have hnumber := congrArg wholeNumber? h
  simpa using hnumber

theorem wholeNumber?_eq_some_mem {s : String} {n : Nat} (h : wholeNumber? s = some n) :
    ∃ ds, textRuns s = [ds] ∧ valueOf ds = n := by
  unfold wholeNumber? at h
  split at h
  · rename_i ds hpieces
    simp only [Option.some.injEq] at h
    exact ⟨ds, by simp [textRuns, hpieces, marks], h⟩
  · simp at h

theorem textRuns_of_not_mem_brace {s : String} (h : '\x7b' ∉ s.toList) : textRuns s = [] := by
  have hmarks : ∀ cs : List Char, marks (cs.map .char) = [] := by
    intro cs
    induction cs with
    | nil => rfl
    | cons c cs ih => exact ih
  rw [textRuns, pieces_of_not_mem_brace h, hmarks]

/-- A text without a brace is no placeholder. -/
theorem ne_id_of_not_mem_brace {s : String} (h : '\x7b' ∉ s.toList) (k : Nat) : s ≠ id k := by
  intro heq
  have hruns := congrArg textRuns heq
  rw [textRuns_of_not_mem_brace h, textRuns_id] at hruns
  cases hruns

theorem id_ne_empty (k : Nat) : id k ≠ "" := (ne_id_of_not_mem_brace (by decide) k).symm

theorem raisedText_of_textRuns_eq_nil {k : Nat} {s : String} (h : textRuns s = []) :
    raisedText k s = s := by
  have hsame : ∀ ps, marks ps = [] → ps.map (Piece.raise k) = ps := by
    intro ps hps
    induction ps with
    | nil => rfl
    | cons p ps ih =>
        cases p with
        | char c => rw [List.map_cons, ih hps, Piece.raise]
        | mark ds => simp [marks] at hps
  rw [raisedText, hsame _ h, render_pieces, String.ofList_toList]

/-- A text with a placeholder holds a brace. -/
theorem mem_brace_of_textRuns_ne_nil {s : String} (h : textRuns s ≠ []) :
    '\x7b' ∈ s.toList :=
  Decidable.byContradiction fun hbrace => h (textRuns_of_not_mem_brace hbrace)

/-- Moving on neither makes nor unmakes a text without a brace. -/
theorem raisedText_eq_iff {k : Nat} {s t : String} (h : '\x7b' ∉ t.toList) :
    raisedText k s = t ↔ s = t := by
  constructor
  · intro heq
    by_cases hruns : textRuns s = []
    · rw [← heq, raisedText_of_textRuns_eq_nil hruns]
    · refine absurd ?_ h
      rw [← heq]
      refine mem_brace_of_textRuns_ne_nil ?_
      rw [textRuns_raisedText]
      simpa using hruns
  · rintro rfl
    exact raisedText_of_textRuns_eq_nil (textRuns_of_not_mem_brace h)

end Storyboard.Placeholder
