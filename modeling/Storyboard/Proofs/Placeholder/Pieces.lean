import Storyboard.Placeholder
/-!
# Texts as rows of pieces

Reading a text into pieces loses nothing, and reading is stable: when the number of a placeholder
is replaced, the new text is read into the same pieces with the new number.  No placeholder is
created, merged or lost.
-/

namespace Storyboard.Placeholder

open Text (isDigit digitValue? after?)

/-! ## Digits -/

/-- The number that the digits of a placeholder denote, however many they are. -/
def valueOf (ds : List Char) : Nat := Text.valueOf (ds.filterMap digitValue?)

theorem digitValue?_of_isDigit {c : Char} (h : c.isDigit = true) :
    digitValue? c = some (c.toNat - '0'.toNat) := by
  have hrange : 48 ≤ c.toNat ∧ c.toNat ≤ 57 := Char.isDigit_iff_toNat.1 h
  have hlt : c.toNat < 128 := by omega
  simp [digitValue?, hlt, h]

theorem isDigit_of_mem_digits {n : Nat} {c : Char} (h : c ∈ Decimal.digits n) :
    isDigit c = true := by
  have hd := Nat.isDigit_of_mem_toDigits (by omega) (by omega) h
  simp [isDigit, digitValue?_of_isDigit hd]

theorem foldl_digitValue? {ds : List Char} (h : ∀ c ∈ ds, c.isDigit = true) (init : Nat) :
    (ds.filterMap digitValue?).foldl (fun n d => 10 * n + d) init =
      Nat.ofDigitChars 10 ds init := by
  induction ds generalizing init with
  | nil => rfl
  | cons c ds ih =>
      have hc := digitValue?_of_isDigit (h c (by simp))
      rw [List.filterMap_cons_some hc, List.foldl_cons, Nat.ofDigitChars_cons]
      exact ih (fun d hd => h d (by simp [hd])) _

@[simp] theorem valueOf_digits (n : Nat) : valueOf (Decimal.digits n) = n := by
  have hdigits : ∀ c ∈ Decimal.digits n, c.isDigit = true := fun c hc =>
    Nat.isDigit_of_mem_toDigits (by omega) (by omega) hc
  unfold valueOf Text.valueOf
  rw [foldl_digitValue? hdigits]
  exact Nat.ofDigitChars_ten_toDigits

theorem length_digits_le_iff (n : Nat) :
    (Decimal.digits n).length ≤ Fault.digitLimit ↔ n < ceiling := by
  unfold ceiling
  generalize hk : Fault.digitLimit = k
  have hpos : 0 < k := by
    rw [← hk, Fault.digitLimit]
    omega
  exact Nat.length_toDigits_le_iff (by omega) hpos

theorem ofInt_natCast (n : Nat) : ofInt n = opening ++ Decimal.digits n ++ closing := by
  have hn : (toString (n : Int)).toList = Decimal.digits n := by
    simp [Int.repr_eq_if, Decimal.digits]
  rw [ofInt, hn]

/-! ## A placeholder at the start of a text -/

theorem after?_eq_some_iff {p cs rest : List Char} :
    after? p cs = some rest ↔ cs = p ++ rest := by
  induction p generalizing cs with
  | nil => simp [after?]
  | cons c p ih =>
      cases cs with
      | nil => simp [after?]
      | cons d cs =>
          by_cases hd : d = c
          · subst hd
            simp [after?, ih]
          · simp [after?, hd]

/-- The digits of a placeholder: at least one, and nothing else. -/
def AreDigits (ds : List Char) : Prop := ds ≠ [] ∧ ∀ d ∈ ds, isDigit d = true

theorem areDigits_digits (n : Nat) : AreDigits (Decimal.digits n) :=
  ⟨Nat.toDigits_ne_nil, fun _ h => isDigit_of_mem_digits h⟩

theorem isDigit_brace : isDigit '\x7b' = false ∧ isDigit '\x7d' = false := by
  constructor <;> rfl

theorem at?_eq_some_iff {cs ds rest : List Char} :
    at? cs = some (ds, rest) ↔ AreDigits ds ∧ cs = opening ++ ds ++ closing ++ rest := by
  constructor
  · intro h
    unfold at? at h
    split at h
    · simp at h
    · rename_i body hbody
      split at h
      · simp at h
      · rename_i d ds' htake
        split at h
        · simp at h
        · rename_i rest' hrest
          simp only [Option.some.injEq, Prod.mk.injEq] at h
          obtain ⟨rfl, rfl⟩ := h
          have hsplit := List.takeWhile_append_dropWhile (p := isDigit) (l := body)
          rw [htake, after?_eq_some_iff.1 hrest] at hsplit
          refine ⟨⟨by simp, fun c hc => ?_⟩, ?_⟩
          · rw [← htake] at hc
            exact List.all_eq_true.1 List.all_takeWhile c hc
          · rw [after?_eq_some_iff.1 hbody, ← hsplit]
            simp
  · rintro ⟨⟨hne, hdigits⟩, rfl⟩
    obtain ⟨d, ds', rfl⟩ := List.exists_cons_of_ne_nil hne
    have hopen : after? opening (opening ++ (d :: ds') ++ closing ++ rest) =
        some ((d :: ds') ++ (closing ++ rest)) := by
      rw [after?_eq_some_iff]
      simp
    have htake : ((d :: ds') ++ (closing ++ rest)).takeWhile isDigit = d :: ds' := by
      rw [List.takeWhile_append_of_pos hdigits]
      simp [closing, isDigit_brace]
    have hdrop : ((d :: ds') ++ (closing ++ rest)).dropWhile isDigit = closing ++ rest := by
      rw [List.dropWhile_append_of_pos hdigits]
      simp [closing, isDigit_brace]
    have hclose : after? closing (closing ++ rest) = some rest := after?_eq_some_iff.2 rfl
    simp only [at?, hopen, htake, hdrop, hclose]

/-! ## Writing pieces out -/

/-- The characters of a piece. -/
def Piece.chars : Piece → List Char
  | .char c => [c]
  | .mark ds => opening ++ ds ++ closing

/-- The text that is read into some pieces. -/
def render (ps : List Piece) : List Char := ps.flatMap Piece.chars

@[simp] theorem render_nil : render [] = [] := rfl

@[simp] theorem render_char (c : Char) (ps : List Piece) :
    render (.char c :: ps) = c :: render ps := rfl

@[simp] theorem render_mark (ds : List Char) (ps : List Piece) :
    render (.mark ds :: ps) = opening ++ ds ++ closing ++ render ps := rfl

@[simp] theorem render_pieces (cs : List Char) : render (pieces cs) = cs := by
  fun_induction pieces cs with
  | case1 cs ds rest h ih =>
      rw [render_mark, ih]
      exact (at?_eq_some_iff.1 h).2.symm
  | case2 h => rfl
  | case3 c rest h ih => rw [render_char, ih]

/-! ## Rows that are read back -/

/-- No placeholder starts at a character of the row, and every placeholder has digits. -/
def Settled : List Piece → Prop
  | [] => True
  | .char c :: rest => at? (c :: render rest) = none ∧ Settled rest
  | .mark ds :: rest => AreDigits ds ∧ Settled rest

theorem settled_pieces (cs : List Char) : Settled (pieces cs) := by
  fun_induction pieces cs with
  | case1 cs ds rest h ih => exact ⟨(at?_eq_some_iff.1 h).1, ih⟩
  | case2 h => trivial
  | case3 c rest h ih => exact ⟨by rw [render_pieces]; exact h, ih⟩

theorem pieces_of_at? {cs ds rest : List Char} (h : at? cs = some (ds, rest)) :
    pieces cs = .mark ds :: pieces rest := by
  rw [pieces]
  split
  · rename_i ds' rest' h'
    rw [h] at h'
    simp only [Option.some.injEq, Prod.mk.injEq] at h'
    rw [h'.1, h'.2]
  · rename_i h'
    rw [h] at h'
    simp at h'

theorem pieces_of_at?_eq_none {c : Char} {rest : List Char} (h : at? (c :: rest) = none) :
    pieces (c :: rest) = .char c :: pieces rest := by
  rw [pieces]
  split
  · rename_i h'
    rw [h] at h'
    simp at h'
  · rfl

theorem pieces_nil : pieces [] = [] := by
  rw [pieces]
  rfl

theorem pieces_render {ps : List Piece} (h : Settled ps) : pieces (render ps) = ps := by
  induction ps with
  | nil => exact pieces_nil
  | cons p ps ih =>
      cases p with
      | char c => rw [render_char, pieces_of_at?_eq_none h.1, ih h.2]
      | mark ds =>
          have hat : at? (render (.mark ds :: ps)) = some (ds, render ps) :=
            at?_eq_some_iff.2 ⟨h.1, rfl⟩
          rw [pieces_of_at? hat, ih h.2]

theorem pieces_of_not_mem_brace {cs : List Char} (h : '\x7b' ∉ cs) :
    pieces cs = cs.map .char := by
  induction cs with
  | nil => exact pieces_nil
  | cons c cs ih =>
      have hnone : at? (c :: cs) = none := by
        cases hat : at? (c :: cs) with
        | none => rfl
        | some hit =>
            obtain ⟨ds, rest⟩ := hit
            have hbrace : c :: cs = '\x7b' :: _ := (at?_eq_some_iff.1 hat).2
            rw [hbrace] at h
            simp at h
      rw [pieces_of_at?_eq_none hnone, ih (fun hc => h (by simp [hc])), List.map_cons]

/-! ## Replacing the numbers -/

/-- The same piece, a placeholder moved on by `k`. -/
def Piece.raise (k : Nat) : Piece → Piece
  | .char c => .char c
  | .mark ds => .mark (Decimal.digits (valueOf ds + k))

/-- No placeholder begins inside a text of this form: a brace is followed by something else. -/
def Shut : List Char → Prop
  | [] => True
  | c :: u => (c = '\x7b' → ∃ d t, u = d :: t ∧ d ≠ '\x7b') ∧ Shut u

theorem shut_of_not_mem_brace {u : List Char} (h : '\x7b' ∉ u) : Shut u := by
  induction u with
  | nil => trivial
  | cons c u ih =>
      refine ⟨fun hc => absurd (by simp [hc]) h, ih fun hu => h (by simp [hu])⟩

/-- What starts with a shut text starts with it whatever the numbers of the placeholders. -/
theorem render_eq_append_of_raise {k : Nat} {ps : List Piece} {u r : List Char} (hu : Shut u)
    (h : render (ps.map (Piece.raise k)) = u ++ r) : ∃ r', render ps = u ++ r' := by
  induction u generalizing ps with
  | nil => exact ⟨render ps, rfl⟩
  | cons c u ih =>
      obtain ⟨hc, hu⟩ := hu
      cases ps with
      | nil => simp at h
      | cons p ps =>
          cases p with
          | char d =>
              simp only [List.map_cons, Piece.raise, render_char, List.cons_append,
                List.cons.injEq] at h
              obtain ⟨r', hr'⟩ := ih hu h.2
              exact ⟨r', by rw [render_char, hr', h.1, List.cons_append]⟩
          | mark ds =>
              -- A placeholder opens with two braces, which a shut text does not hold.
              have hopen : '\x7b' :: '\x7b' :: _ = c :: (u ++ r) := h
              simp only [List.cons.injEq] at hopen
              obtain ⟨d, t, rfl, hd⟩ := hc hopen.1.symm
              exact absurd (List.cons.inj hopen.2).1.symm hd

theorem shut_tail {ds : List Char} (h : AreDigits ds) :
    Shut (opening.tail ++ ds ++ closing) := by
  have hrest : '\x7b' ∉ "NEW_ID_".toList ++ ds ++ closing := by
    intro hmem
    simp only [List.mem_append] at hmem
    rcases hmem with (hopen | hds) | hclose
    · revert hopen
      decide
    · have := h.2 _ hds
      rw [isDigit_brace.1] at this
      exact absurd this (by decide)
    · revert hclose
      decide
  exact ⟨fun _ => ⟨'N', _, rfl, by decide⟩, shut_of_not_mem_brace hrest⟩

theorem at?_raise_eq_none {k : Nat} {c : Char} {ps : List Piece}
    (h : at? (c :: render ps) = none) : at? (c :: render (ps.map (Piece.raise k))) = none := by
  cases hat : at? (c :: render (ps.map (Piece.raise k))) with
  | none => rfl
  | some hit =>
      obtain ⟨ds, rest⟩ := hit
      obtain ⟨hds, htext⟩ := at?_eq_some_iff.1 hat
      have hsplit : c :: render (ps.map (Piece.raise k)) =
          '\x7b' :: ((opening.tail ++ ds ++ closing) ++ rest) := htext
      simp only [List.cons.injEq] at hsplit
      obtain ⟨hc, htail⟩ := hsplit
      obtain ⟨rest', hrest'⟩ := render_eq_append_of_raise (shut_tail hds) htail
      have hhit : at? (c :: render ps) = some (ds, rest') := by
        refine at?_eq_some_iff.2 ⟨hds, ?_⟩
        rw [hrest', hc]
        rfl
      rw [h] at hhit
      exact absurd hhit (by simp)

theorem settled_raise {k : Nat} {ps : List Piece} (h : Settled ps) :
    Settled (ps.map (Piece.raise k)) := by
  induction ps with
  | nil => trivial
  | cons p ps ih =>
      cases p with
      | char c => exact ⟨at?_raise_eq_none h.1, ih h.2⟩
      | mark ds => exact ⟨areDigits_digits _, ih h.2⟩

/-- A text with every placeholder moved on by `k`. -/
def raisedText (k : Nat) (s : String) : String :=
  String.ofList (render ((pieces s.toList).map (Piece.raise k)))

theorem pieces_raisedText (k : Nat) (s : String) :
    pieces (raisedText k s).toList = (pieces s.toList).map (Piece.raise k) := by
  rw [raisedText, String.toList_ofList]
  exact pieces_render (settled_raise (settled_pieces _))

/-- The digits of the placeholders among some pieces. -/
def marks : List Piece → List (List Char)
  | [] => []
  | .char _ :: rest => marks rest
  | .mark ds :: rest => ds :: marks rest

theorem marks_raise (k : Nat) (ps : List Piece) :
    marks (ps.map (Piece.raise k)) =
      (marks ps).map fun ds => Decimal.digits (valueOf ds + k) := by
  induction ps with
  | nil => rfl
  | cons p ps ih => cases p <;> simp [marks, Piece.raise, ih]

end Storyboard.Placeholder
