import Storyboard.Prompt.Features
import Storyboard.Proofs.Prompt.Search
/-!
# Keywords and words

A keyword that is no phrase of several words is mentioned exactly when one of the words of the
prompt is one of its phrases, whatever the case of the letters.
-/

namespace Storyboard

namespace Text

variable {cs w phrase : List Char} {c : Char}

/-- Only word characters fold to word characters. -/
theorem isWord_of_isWord_fold (h : isWord (fold c) = true) : isWord c = true := by
  unfold fold at h
  split at h
  case h_5 =>
    unfold Char.toLower at h
    split at h
    · rename_i hcapital
      have hhigh := UInt32.le_iff_toNat_le.1 hcapital.2
      have hascii : c.toNat < 128 := Nat.lt_of_le_of_lt hhigh (by decide)
      have hupper : c.isUpper = true := decide_eq_true hcapital
      have hletter : c.isAlphanum = true := by
        show (c.isUpper || c.isLower || c.isDigit) = true
        rw [hupper]
        rfl
      rw [isWord, if_pos hascii, hletter]
      rfl
    · exact h
  all_goals decide +kernel

theorem afterFolded?_eq_some_iff {rest : List Char} :
    afterFolded? phrase cs = some rest ↔ ∃ w, cs = w ++ rest ∧ w.map fold = phrase := by
  induction phrase generalizing cs with
  | nil => simp [afterFolded?, eq_comm]
  | cons p phrase ih =>
      cases cs with
      | nil => simp [afterFolded?]
      | cons c cs =>
          rw [afterFolded?]
          split
          · rename_i hfold
            rw [ih]
            constructor
            · rintro ⟨w, rfl, rfl⟩
              exact ⟨c :: w, rfl, by rw [List.map_cons, hfold]⟩
            · rintro ⟨w, hsplit, hw⟩
              obtain ⟨d, w, rfl, rfl, rfl⟩ := List.map_eq_cons_iff.1 hw
              exact ⟨w, (List.cons.inj hsplit).2, rfl⟩
          · rename_i hfold
            simp only [reduceCtorEq, false_iff]
            rintro ⟨w, hsplit, hw⟩
            obtain ⟨d, w, rfl, rfl, -⟩ := List.map_eq_cons_iff.1 hw
            exact hfold (congrArg fold (List.cons.inj hsplit).1)

theorem wholeAt_iff {inside : Bool} {rest : List Char} :
    wholeAt phrase inside rest = true ↔ inside = false ∧ ∃ w after, rest = w ++ after ∧
      w.map fold = phrase ∧ ∀ c ∈ after.head?, isWord c = false := by
  rw [wholeAt, Bool.and_eq_true, Bool.not_eq_true', getD_map_endsWord_iff]
  simp only [afterFolded?_eq_some_iff]
  constructor
  · rintro ⟨hinside, after, ⟨w, hsplit, hw⟩, hafter⟩
    exact ⟨hinside, w, after, hsplit, hw, hafter⟩
  · rintro ⟨hinside, w, after, hsplit, hw, hafter⟩
    exact ⟨hinside, after, ⟨w, hsplit, hw⟩, hafter⟩

theorem mentions_iff : mentions cs phrase = true ↔ ∃ before w after, cs = before ++ w ++ after ∧
    w.map fold = phrase ∧ (∀ c ∈ before.getLast?, isWord c = false) ∧
      ∀ c ∈ after.head?, isWord c = false := by
  rw [mentions, isSome_search_iff]
  constructor
  · rintro ⟨before, rest, rfl, hrule⟩
    obtain ⟨hbefore, w, after, rfl, hw, hafter⟩ := wholeAt_iff.1 (by simpa using hrule)
    exact ⟨before, w, after, by rw [List.append_assoc], hw, insideAfter_eq_false_iff.1 hbefore,
      hafter⟩
  · rintro ⟨before, w, after, rfl, hw, hbefore, hafter⟩
    refine ⟨before, w ++ after, by rw [List.append_assoc], ?_⟩
    rw [if_pos (wholeAt_iff.2 ⟨insideAfter_eq_false_iff.2 hbefore, w, after, rfl, hw, hafter⟩)]
    rfl

/-- A phrase of word characters is mentioned when it is one of the words of a text. -/
theorem mentions_iff_words (hne : phrase ≠ []) (hword : ∀ c ∈ phrase, isWord c = true) :
    mentions cs phrase = true ↔ ∃ w ∈ words cs, w.map fold = phrase := by
  simp only [mentions_iff, mem_words_iff, WordIn]
  constructor
  · rintro ⟨before, w, after, hsplit, rfl, hbefore, hafter⟩
    refine ⟨w, ⟨by simpa using hne, fun c hc => ?_, before, after, hsplit, hbefore, hafter⟩, rfl⟩
    exact isWord_of_isWord_fold (hword _ (List.mem_map_of_mem hc))
  · rintro ⟨w, ⟨-, -, before, after, hsplit, hbefore, hafter⟩, hfold⟩
    exact ⟨before, w, after, hsplit, hfold, hbefore, hafter⟩

end Text

namespace Keyword

/-- A keyword's phrases are made of words with blanks or hyphens between them. -/
theorem phrases_spelled (k : Keyword) : ∀ p ∈ k.phrases, p ≠ [] ∧
    ∀ c ∈ p, Text.isWord c = true ∨ c = ' ' ∨ c = '-' := by
  have htable : ∀ k ∈ inventory, ∀ p ∈ k.phrases, p ≠ [] ∧
      p.all (fun c => Text.isWord c || c == ' ' || c == '-') = true := by
    decide +kernel
  intro p hp
  obtain ⟨hne, hall⟩ := htable k (mem_inventory k) p hp
  refine ⟨hne, fun c hc => ?_⟩
  simpa [or_assoc] using List.all_eq_true.1 hall c hc

/-- A keyword whose phrases are single words is mentioned exactly when a word of the prompt folds to
one of them, and the words of a prompt are its longest rows of word characters. -/
theorem isIn_iff_words {k : Keyword} (h : ∀ p ∈ k.phrases, ' ' ∉ p ∧ '-' ∉ p) (raw : String) :
    (k.isIn (Features.normalize raw).toList = true ↔
      ∃ w ∈ Text.words (Features.normalize raw).toList, w.map Text.fold ∈ k.phrases) ∧
    ∀ w, w ∈ Text.words (Features.normalize raw).toList ↔
      Text.WordIn (Features.normalize raw).toList w := by
  refine ⟨?_, fun w => Text.mem_words_iff⟩
  have hwords : ∀ p ∈ k.phrases, Text.mentions (Features.normalize raw).toList p = true ↔
      ∃ w ∈ Text.words (Features.normalize raw).toList, w.map Text.fold = p := by
    intro p hp
    obtain ⟨hne, hspelled⟩ := phrases_spelled k p hp
    obtain ⟨hblank, hhyphen⟩ := h p hp
    refine Text.mentions_iff_words hne fun c hc => ?_
    rcases hspelled c hc with hword | rfl | rfl
    · exact hword
    · exact absurd hc hblank
    · exact absurd hc hhyphen
  rw [isIn, List.any_eq_true]
  constructor
  · rintro ⟨p, hp, hmentions⟩
    obtain ⟨w, hw, rfl⟩ := (hwords p hp).1 hmentions
    exact ⟨w, hw, hp⟩
  · rintro ⟨w, hw, hp⟩
    exact ⟨_, hp, (hwords _ hp).2 ⟨w, hw, rfl⟩⟩

/-- The long s ends the plural, and a ball inside of another word is none. -/
theorem isIn_iff_words_circle : (∀ p ∈ circle.phrases, ' ' ∉ p ∧ '-' ∉ p) ∧
    circle.isIn (Features.normalize "Eight BALLſ").toList = true ∧
    circle.isIn (Features.normalize "A football").toList = false := by
  have hplain : ∀ p ∈ circle.phrases, ' ' ∉ p ∧ '-' ∉ p := by decide
  refine ⟨hplain, (isIn_iff_words hplain _).1.2 ⟨"ballſ".toList, ?_, ?_⟩, ?_⟩
  · decide +kernel
  · decide
  · rw [← Bool.not_eq_true, (isIn_iff_words hplain _).1]
    decide +kernel

end Keyword

end Storyboard
