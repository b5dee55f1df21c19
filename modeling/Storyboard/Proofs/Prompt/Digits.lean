import Storyboard.Proofs.Prompt.Unmarked
/-!
# Rows of digits in a prompt

Small letters are other letters, never other digits, so a prompt in small letters has the rows of
digits that it had before.  Where these are short enough to be read as numbers, so is the count of
a prompt, and so are the placeholders in the words that it quotes.
-/

namespace Storyboard

namespace Text

/-- No row of digits is too long to be read as a number. -/
def ShortRuns (cs : List Char) : Prop :=
  ∀ ds, ds <:+: cs → (∀ d ∈ ds, isDigit d = true) → ds.length ≤ Fault.digitLimit

theorem ShortRuns.of_isInfix {cs ds : List Char} (h : ShortRuns cs) (hpart : ds <:+: cs) :
    ShortRuns ds :=
  fun es hes hdigits => h es (hes.trans hpart) hdigits

theorem ShortRuns.length_takeWhile {cs : List Char} (h : ShortRuns cs) :
    (cs.takeWhile isDigit).length ≤ Fault.digitLimit :=
  h _ (List.takeWhile_prefix _).isInfix fun d hd => List.all_eq_true.1 List.all_takeWhile d hd

theorem shortRuns_nil : ShortRuns [] := by
  intro ds hds _
  simp [List.infix_nil.1 hds]

theorem shortRuns_cons {c : Char} {cs : List Char} :
    ShortRuns (c :: cs) ↔
      ((c :: cs).takeWhile isDigit).length ≤ Fault.digitLimit ∧ ShortRuns cs := by
  constructor
  · exact fun h => ⟨h.length_takeWhile, h.of_isInfix (List.suffix_cons c cs).isInfix⟩
  · rintro ⟨hfront, hrest⟩ ds hds hdigits
    rcases List.infix_cons_iff.1 hds with ⟨tail, htail⟩ | hds
    · -- A row of digits at the start is a part of the longest one there.
      have hlength : ds.length ≤ ((c :: cs).takeWhile isDigit).length := by
        rw [← htail, List.takeWhile_append_of_pos hdigits, List.length_append]
        omega
      omega
    · exact hrest ds hds hdigits

theorem no_digits_of_any {cs : List Char} (h : cs.any isDigit = false) :
    ∀ c ∈ cs, isDigit c = false := by
  simpa using h

theorem shortRuns_append_of_no_digits {image cs : List Char}
    (himage : ∀ d ∈ image, isDigit d = false) (h : ShortRuns cs) : ShortRuns (image ++ cs) := by
  induction image with
  | nil => exact h
  | cons c image ih =>
      obtain ⟨hc, himage⟩ := List.forall_mem_cons.1 himage
      refine shortRuns_cons.2 ⟨?_, ih himage⟩
      simp [hc]

theorem shortRuns_of_no_digits {cs : List Char} (h : cs.any isDigit = false) : ShortRuns cs := by
  rw [← List.append_nil cs]
  exact shortRuns_append_of_no_digits (no_digits_of_any h) shortRuns_nil

/-- A text that is no longer than a number may be has no longer row of digits either. -/
theorem shortRuns_of_length_le {cs : List Char} (h : cs.length ≤ Fault.digitLimit) :
    ShortRuns cs :=
  fun _ hds _ => Nat.le_trans hds.length_le h

theorem shortRuns_digits_append {ds cs : List Char} (hlength : ds.length ≤ Fault.digitLimit)
    (hdigits : ∀ d ∈ ds, isDigit d = true) (hcs : cs.takeWhile isDigit = []) (h : ShortRuns cs) :
    ShortRuns (ds ++ cs) := by
  induction ds with
  | nil => exact h
  | cons d ds ih =>
      have hfront : ((d :: ds) ++ cs).takeWhile isDigit = d :: ds := by
        rw [List.takeWhile_append_of_pos hdigits, hcs, List.append_nil]
      rw [List.cons_append, shortRuns_cons, ← List.cons_append, hfront]
      refine ⟨hlength, ih ?_ (List.forall_mem_cons.1 hdigits).2⟩
      rw [List.length_cons] at hlength
      omega

/-! ## Letter case -/

/-- A digit is one of ten in its script. -/
theorem exists_base_of_isDigit {c : Char} (h : isDigit c = true) :
    ∃ base ∈ digitZeros.toList, base ≤ c.toNat ∧ c.toNat < base + 10 := by
  unfold isDigit digitValue? at h
  by_cases hascii : c.toNat < 128
  · rw [if_pos hascii] at h
    have hrange : 48 ≤ c.toNat ∧ c.toNat ≤ 57 := by
      apply Char.isDigit_iff_toNat.1
      by_contra hnot
      simp [hnot] at h
    exact ⟨48, by decide, hrange.1, by omega⟩
  · rw [if_neg hascii] at h
    dsimp only at h
    split at h
    · rename_i hrange
      cases hbase : digitZeros[countUpTo digitZeros c.toNat 0 digitZeros.size - 1]? with
      | none =>
          rw [hbase, Option.getD_none] at hrange
          omega
      | some base =>
          rw [hbase, Option.getD_some] at hrange
          exact ⟨base, Array.mem_toList_iff.2 (Array.mem_of_getElem? hbase), hrange⟩
    · simp at h

theorem isBlank_of_isDigit {c : Char} (h : isDigit c = true) : isBlank c = false := by
  have hall : ∀ base ∈ digitZeros.toList, ∀ i < 10, isBlank (Char.ofNat (base + i)) = false := by
    decide +kernel
  obtain ⟨base, hbase, hlow, hhigh⟩ := exists_base_of_isDigit h
  have hc := hall base hbase (c.toNat - base) (by omega)
  rwa [Nat.add_sub_cancel' hlow, Char.ofNat_toNat] at hc

theorem not_isDigit_of_isBlank {c : Char} (h : isBlank c = true) : isDigit c = false := by
  rw [← Bool.not_eq_true]
  intro hdigit
  rw [isBlank_of_isDigit hdigit] at h
  cases h

/-- Neither capital letters nor their small forms are digits of any script. -/
theorem lowerRuns_apart : ∀ base ∈ digitZeros.toList, ∀ run ∈ lowerRuns.toList,
    (run.2.1 < base ∨ base + 10 ≤ run.1) ∧
      (run.2.2.2 + (run.2.1 - run.1) < base ∨ base + 10 ≤ run.2.2.2) := by
  decide +kernel

theorem pos_of_mem_digitZeros : ∀ base ∈ digitZeros.toList, 0 < base := by
  decide +kernel

/-- The letters of ASCII, in both cases, are digits of no script. -/
theorem not_isDigit_of_letter {c : Char} (hlow : 65 ≤ c.toNat) (hhigh : c.toNat ≤ 122) :
    isDigit c = false := by
  have hletters : ∀ base ∈ digitZeros.toList, base + 10 ≤ 65 ∨ 122 < base := by decide +kernel
  rw [← Bool.not_eq_true]
  intro h
  obtain ⟨base, hbase, hlow', hhigh'⟩ := exists_base_of_isDigit h
  have := hletters base hbase
  omega

theorem toLower_eq_of_isDigit {c : Char} (h : isDigit c = true ∨ isDigit c.toLower = true) :
    c.toLower = c := by
  rcases h with h | h
  · unfold Char.toLower
    rw [dif_neg]
    rintro ⟨hlow, hhigh⟩
    have hlow : 65 ≤ c.toNat := UInt32.le_iff_toNat_le.1 hlow
    have hhigh : c.toNat ≤ 90 := UInt32.le_iff_toNat_le.1 hhigh
    rw [not_isDigit_of_letter hlow (by omega)] at h
    cases h
  · refine (eq_of_toLower_eq ?_ rfl).symm
    rintro ⟨hlow, hhigh⟩
    rw [not_isDigit_of_letter (by omega) hhigh] at h
    cases h

/-- Neither a capital letter in a run nor its small form is a digit. -/
theorem not_isDigit_of_mem_lowerRuns {first last stride image : Nat} {c : Char}
    (hmem : (first, last, stride, image) ∈ lowerRuns.toList) (hfirst : first ≤ c.toNat)
    (hlast : c.toNat ≤ last) :
    isDigit c = false ∧ isDigit (Char.ofNat (image + (c.toNat - first))) = false := by
  rw [← Bool.not_eq_true, ← Bool.not_eq_true]
  refine ⟨fun h => ?_, fun h => ?_⟩
  · obtain ⟨base, hbase, hlow, hhigh⟩ := exists_base_of_isDigit h
    have hapart := (lowerRuns_apart base hbase _ hmem).1
    dsimp only at hapart
    omega
  · obtain ⟨base, hbase, hlow, hhigh⟩ := exists_base_of_isDigit h
    have hpos := pos_of_mem_digitZeros base hbase
    have hvalue : image + (c.toNat - first) = (Char.ofNat (image + (c.toNat - first))).toNat :=
      toNat_of_ofNat_eq (by omega) rfl
    have hapart := (lowerRuns_apart base hbase _ hmem).2
    dsimp only at hapart
    omega

/-- A small form is another character only when neither of the two is a digit. -/
theorem lowerChar_eq_of_isDigit {c : Char}
    (h : isDigit c = true ∨ isDigit (lowerChar c) = true) : lowerChar c = c := by
  unfold lowerChar at *
  split
  · rename_i hascii
    rw [if_pos hascii] at h
    exact toLower_eq_of_isDigit h
  · rename_i hwide
    rw [if_neg hwide] at h
    split
    · rename_i first last stride image hrun
      have hmem := Array.mem_toList_iff.2 (Array.mem_of_getElem? hrun)
      rw [hrun] at h
      dsimp only at h
      split
      · rename_i hrange
        rw [if_pos hrange] at h
        obtain ⟨hcapital, hsmall⟩ := not_isDigit_of_mem_lowerRuns hmem hrange.1 hrange.2.1
        simp [hcapital, hsmall] at h
      · rfl
    · rfl

/-- A character in small letters: itself, or no digits in place of what is none. -/
theorem exists_image (before : List Char) (c : Char) (rest : List Char) :
    ∃ image, lowerFrom before (c :: rest) = image ++ lowerFrom (c :: before) rest ∧
      (image = [c] ∨ isDigit c = false ∧ image ≠ [] ∧ ∀ d ∈ image, isDigit d = false) := by
  refine ⟨_, rfl, ?_⟩
  split
  · rename_i hsigma
    obtain rfl : c = 'Σ' := by simpa using hsigma
    right
    refine ⟨by decide +kernel, ?_⟩
    split <;> exact ⟨by simp, no_digits_of_any (by decide +kernel)⟩
  · split
    · rename_i hdotted
      obtain rfl : c = 'İ' := by simpa using hdotted
      exact .inr ⟨by decide +kernel, by simp, no_digits_of_any (by decide +kernel)⟩
    · by_cases hdigit : isDigit c = true ∨ isDigit (lowerChar c) = true
      · exact .inl (by rw [lowerChar_eq_of_isDigit hdigit])
      · right
        simpa using hdigit

/-- The row of digits that a text starts with stays when its letters become small. -/
theorem takeWhile_lowerFrom (before cs : List Char) :
    (lowerFrom before cs).takeWhile isDigit = cs.takeWhile isDigit := by
  induction cs generalizing before with
  | nil => rfl
  | cons c cs ih =>
      obtain ⟨image, himage, hcases⟩ := exists_image before c cs
      rw [himage]
      rcases hcases with rfl | ⟨hc, hne, hnone⟩
      · by_cases hc : isDigit c = true <;> simp [hc, ih]
      · obtain ⟨d, image, rfl⟩ := List.exists_cons_of_ne_nil hne
        simp [hc, hnone d]

theorem shortRuns_lowerFrom {before cs : List Char} (h : ShortRuns cs) :
    ShortRuns (lowerFrom before cs) := by
  induction cs generalizing before with
  | nil => exact h
  | cons c cs ih =>
      have hrest : ShortRuns (lowerFrom (c :: before) cs) := ih (shortRuns_cons.1 h).2
      obtain ⟨image, himage, hcases⟩ := exists_image before c cs
      rcases hcases with rfl | ⟨-, -, hnone⟩
      · have hfront := takeWhile_lowerFrom before (c :: cs)
        rw [himage, List.singleton_append] at hfront
        rw [himage, List.singleton_append, shortRuns_cons, hfront]
        exact ⟨h.length_takeWhile, hrest⟩
      · rw [himage]
        exact shortRuns_append_of_no_digits hnone hrest

end Text

/-! ## What is read from a prompt -/

open Text (ShortRuns)

theorem Features.shortRuns_normalize {raw : String} (h : ShortRuns raw.toList) :
    ShortRuns (normalize raw).toList := by
  rw [normalize, Text.trim, String.toList_ofList, Text.lower, String.toList_ofList]
  exact (Text.shortRuns_lowerFrom h).of_isInfix (Text.trimBy_isInfix _ _)

namespace Measure

theorem eq_takeWhile_of_countAt {cs digits : List Char} (h : countAt cs = some digits) :
    digits = cs.takeWhile Text.isDigit := by
  unfold countAt at h
  split at h
  · simp at h
  · split at h
    · exact (Option.some.inj h).symm
    · simp at h

theorem count_returns {cs : List Char} (h : ShortRuns cs) : ∃ n, count cs = .ok n := by
  unfold count
  split
  · rename_i digits hfound
    obtain ⟨_, t, ht, hrule⟩ := Text.exists_of_search hfound
    have hlength : digits.length ≤ Fault.digitLimit := by
      rw [eq_takeWhile_of_countAt hrule]
      exact (h.of_isInfix ht.isInfix).length_takeWhile
    exact ⟨_, if_neg (by omega)⟩
  · split <;> exact ⟨_, rfl⟩

end Measure

theorem Features.ofText_returns {α : Type} [Scalar α] {raw : String}
    (h : ShortRuns raw.toList) : ∃ f : Features α, Features.ofText raw = .ok f := by
  obtain ⟨count, hcount⟩ := Measure.count_returns (shortRuns_normalize h)
  dsimp only [ofText]
  rw [hcount, map_ok]
  exact ⟨_, rfl⟩

theorem Features.mentions_of_ofText {α : Type} [Scalar α] {raw : String} {f : Features α}
    (h : Features.ofText raw = .ok f) : f.mentions = fun k => k.isIn (normalize raw).toList := by
  unfold ofText at h
  obtain ⟨count, -, rfl⟩ := map_eq_ok_iff.1 h
  rfl

/-- The words that a prompt quotes have rows of digits of the prompt. -/
theorem Features.shortRuns_content {α : Type} [Scalar α] {raw s : String} {f : Features α}
    (hraw : ShortRuns raw.toList) (hf : Features.ofText raw = .ok f) (hs : f.content = some s) :
    ShortRuns s.toList := by
  unfold ofText at hf
  obtain ⟨count, -, rfl⟩ := map_eq_ok_iff.1 hf
  dsimp only at hs
  rcases Quotation.infix_of_content? hs with hpart | hpart
  · exact hraw.of_isInfix hpart
  · exact (shortRuns_normalize hraw).of_isInfix hpart

/-! ## Placeholders -/

namespace Placeholder

theorem infix_of_mem_marks {ps : List Piece} {ds : List Char} (h : ds ∈ marks ps) :
    ds <:+: render ps := by
  induction ps with
  | nil => cases h
  | cons p ps ih =>
      cases p with
      | char c => exact (ih h).trans (List.suffix_cons c _).isInfix
      | mark es =>
          rw [render_mark]
          rcases List.mem_cons.1 h with rfl | h
          · exact ⟨opening, closing ++ render ps, by simp⟩
          · exact (ih h).trans (List.suffix_append _ _).isInfix

theorem isDigit_of_mem_marks {ps : List Piece} (hps : Settled ps) {ds : List Char}
    (h : ds ∈ marks ps) : ∀ d ∈ ds, Text.isDigit d = true := by
  induction ps with
  | nil => cases h
  | cons p ps ih =>
      cases p with
      | char c => exact ih hps.2 h
      | mark es =>
          rcases List.mem_cons.1 h with rfl | h
          · exact hps.1.2
          · exact ih hps.2 h

/-- The placeholders of a text with short rows of digits can be read. -/
theorem readable_of_shortRuns {s : String} (h : ShortRuns s.toList) : Readable (textRuns s) := by
  intro ds hds
  have hpart := infix_of_mem_marks hds
  rw [render_pieces] at hpart
  exact h ds hpart (isDigit_of_mem_marks (settled_pieces _) hds)

/-- An id with a number that can be written has a short row of digits. -/
theorem shortRuns_id {n : Nat} (h : n < ceiling) : ShortRuns (id n).toList := by
  have hclosing : ShortRuns closing := Text.shortRuns_of_no_digits (by decide)
  rw [toList_id, List.append_assoc]
  refine Text.shortRuns_append_of_no_digits (Text.no_digits_of_any (by decide +kernel)) ?_
  exact Text.shortRuns_digits_append (length_digits_le h) (fun d hd => isDigit_of_mem_digits hd)
    (by decide) hclosing

end Placeholder

end Storyboard
