import Storyboard.Proofs.Prompt.FirstSeen
import Storyboard.Proofs.Prompt.Keywords
/-!
# Colours that a prompt names

A colour code is a number sign with three to eight hexadecimal digits up to the end of a word, and a
colour name is a word.  The codes of a prompt are listed in the order in which they are first met,
its names in the order of the table of names.
-/

namespace Storyboard

namespace Text

variable {cs phrase : List Char} {i : Nat}

/-- A phrase stands at a place of a text as whole words. -/
def WholeAt (cs phrase : List Char) (i : Nat) : Prop :=
  ∃ before w after, cs = before ++ (w ++ after) ∧ before.length = i ∧ w.map fold = phrase ∧
    (∀ c ∈ before.getLast?, isWord c = false) ∧ ∀ c ∈ after.head?, isWord c = false

theorem mentions_iff_wholeAt : mentions cs phrase = true ↔ ∃ i, WholeAt cs phrase i := by
  rw [mentions_iff]
  simp only [WholeAt, List.append_assoc]
  constructor
  · rintro ⟨before, w, after, hsplit, hw, hedges⟩
    exact ⟨before.length, before, w, after, hsplit, rfl, hw, hedges⟩
  · rintro ⟨_, before, w, after, hsplit, -, hw, hedges⟩
    exact ⟨before, w, after, hsplit, hw, hedges⟩

theorem takeWhile_of_head {p : Char → Bool} {w after : List Char} (hw : ∀ c ∈ w, p c = true)
    (hafter : ∀ c ∈ after.head?, p c = false) : (w ++ after).takeWhile p = w := by
  rw [List.takeWhile_append_of_pos hw]
  cases after with
  | nil => simp
  | cons c after => simp [hafter c rfl]

/-- A property of what stands before a place and of what follows it. -/
theorem exists_split_iff {P : List Char → List Char → Prop} :
    (∃ before rest, cs = before ++ rest ∧ before.length = i ∧ P before rest) ↔
      i ≤ cs.length ∧ P (cs.take i) (cs.drop i) := by
  constructor
  · rintro ⟨before, rest, rfl, rfl, h⟩
    simpa using h
  · rintro ⟨hi, h⟩
    exact ⟨cs.take i, cs.drop i, (List.take_append_drop i cs).symm, List.length_take_of_le hi, h⟩

/-- Small letters of plain characters, one by one. -/
theorem lowerFrom_of_plain (before : List Char) (h : ∀ c ∈ cs, c.toNat < 128) :
    lowerFrom before cs = cs.map Char.toLower := by
  induction cs generalizing before with
  | nil => rfl
  | cons c cs ih =>
      obtain ⟨hc, hcs⟩ := List.forall_mem_cons.1 h
      have hsigma : (c == 'Σ') = false := by
        rw [beq_eq_false_iff_ne]
        rintro rfl
        exact absurd hc (by decide)
      have hdotted : (c == 'İ') = false := by
        rw [beq_eq_false_iff_ne]
        rintro rfl
        exact absurd hc (by decide)
      unfold lowerFrom
      rw [hsigma, hdotted, ih _ hcs]
      simp [lowerChar, hc]

end Text

namespace Colour

open Text (WholeAt isWord endsWord endsWord_iff insideAfter insideAfter_eq_false_iff findAll
  answerAt firstSeen_findAll takeWhile_of_head wholeAt wholeAt_iff)

variable {cs digits after : List Char} {c : Char} {i : Nat} {text code v : String}

/-! ## Codes -/

theorem toNat_of_isHexDigit (h : isHexDigit c = true) : c.toNat < 128 := by
  simp only [isHexDigit, Bool.or_eq_true, Bool.and_eq_true, decide_eq_true_eq] at h
  rcases h with (hdigit | ⟨-, hhigh⟩) | ⟨-, hhigh⟩
  · have hrange : 48 ≤ c.toNat ∧ c.toNat ≤ 57 := Char.isDigit_iff_toNat.1 hdigit
    omega
  · exact Nat.lt_of_le_of_lt (UInt32.le_iff_toNat_le.1 hhigh) (by decide)
  · exact Nat.lt_of_le_of_lt (UInt32.le_iff_toNat_le.1 hhigh) (by decide)

theorem isWord_of_isHexDigit (h : isHexDigit c = true) : isWord c = true := by
  have hletter : (c.isUpper || c.isLower || c.isDigit) = true := by
    simp only [isHexDigit, Bool.or_eq_true, Bool.and_eq_true, decide_eq_true_eq] at h
    rcases h with (hdigit | ⟨hlow, hhigh⟩) | ⟨hlow, hhigh⟩
    · rw [hdigit, Bool.or_true]
    · have hz : c.val ≤ 'z'.val := UInt32.le_trans hhigh (by decide)
      have hlower : c.isLower = true :=
        Bool.and_eq_true_iff.2 ⟨decide_eq_true hlow, decide_eq_true hz⟩
      rw [hlower, Bool.or_true, Bool.true_or]
    · have hz : c.val ≤ 'Z'.val := UInt32.le_trans hhigh (by decide)
      have hupper : c.isUpper = true := decide_eq_true ⟨hlow, hz⟩
      rw [hupper, Bool.true_or, Bool.true_or]
  have halphanum : c.isAlphanum = true := hletter
  rw [isWord, if_pos (toNat_of_isHexDigit h), halphanum, Bool.true_or]

theorem codeAt?_eq_some_iff : codeAt? cs = some digits ↔
    ∃ after, cs = '#' :: (digits ++ after) ∧ (3 ≤ digits.length ∧ digits.length ≤ 8) ∧
      (∀ d ∈ digits, isHexDigit d = true) ∧ ∀ c ∈ after.head?, isWord c = false := by
  constructor
  · intro h
    unfold codeAt? at h
    split at h
    · rename_i rest
      dsimp only at h
      split at h
      · rename_i hcode
        obtain rfl := Option.some.inj h
        obtain ⟨hlow, hhigh, hend⟩ := hcode
        have hprefix : rest = rest.takeWhile isHexDigit ++
            rest.drop (rest.takeWhile isHexDigit).length :=
          (List.prefix_iff_eq_append.1 (List.takeWhile_prefix isHexDigit)).symm
        exact ⟨_, congrArg _ hprefix, ⟨hlow, hhigh⟩, List.all_eq_true.1 List.all_takeWhile,
          endsWord_iff.1 hend⟩
      · cases h
    · cases h
  · rintro ⟨after, rfl, hlength, hhex, hafter⟩
    have htake : (digits ++ after).takeWhile isHexDigit = digits := by
      apply takeWhile_of_head hhex
      intro c hc
      rw [← Bool.not_eq_true]
      exact fun h => by simpa [isWord_of_isHexDigit h] using hafter c hc
    rw [codeAt?, htake, List.drop_left]
    exact if_pos ⟨hlength.1, hlength.2, endsWord_iff.2 hafter⟩

/-- A colour code, in small letters, stands at a place of a text: three to eight hexadecimal digits
after a number sign, up to the end of a word. -/
def CodeAt (cs : List Char) (i : Nat) (code : String) : Prop :=
  ∃ before digits after, cs = before ++ '#' :: (digits ++ after) ∧ before.length = i ∧
    (3 ≤ digits.length ∧ digits.length ≤ 8) ∧ (∀ d ∈ digits, isHexDigit d = true) ∧
    (∀ c ∈ after.head?, isWord c = false) ∧
    code = Text.lower (String.ofList ('#' :: digits))

/-- The code in small letters at the start of a text. -/
def smallCodeAt (_ : Bool) (cs : List Char) : Option String :=
  (codeAt? cs).map fun digits => lowerCode (String.ofList ('#' :: digits))

theorem lower_code (h : ∀ d ∈ digits, isHexDigit d = true) :
    Text.lower (String.ofList ('#' :: digits)) = lowerCode (String.ofList ('#' :: digits)) := by
  rw [Text.lower, lowerCode, String.toList_ofList, Text.lowerFrom_of_plain]
  refine List.forall_mem_cons.2 ⟨by decide, fun d hd => toNat_of_isHexDigit (h d hd)⟩

theorem smallCodeAt_eq_some_iff {inside : Bool} : smallCodeAt inside cs = some code ↔
    ∃ digits after, cs = '#' :: (digits ++ after) ∧ (3 ≤ digits.length ∧ digits.length ≤ 8) ∧
      (∀ d ∈ digits, isHexDigit d = true) ∧ (∀ c ∈ after.head?, isWord c = false) ∧
      code = Text.lower (String.ofList ('#' :: digits)) := by
  simp only [smallCodeAt, Option.map_eq_some_iff, codeAt?_eq_some_iff]
  constructor
  · rintro ⟨digits, ⟨after, hsplit, hlength, hhex, hafter⟩, rfl⟩
    exact ⟨digits, after, hsplit, hlength, hhex, hafter, (lower_code hhex).symm⟩
  · rintro ⟨digits, after, hsplit, hlength, hhex, hafter, rfl⟩
    exact ⟨digits, ⟨after, hsplit, hlength, hhex, hafter⟩, (lower_code hhex).symm⟩

theorem codeAt_iff : CodeAt cs i code ↔ answerAt smallCodeAt false cs i = some code := by
  have hsplit : CodeAt cs i code ↔ ∃ before rest, cs = before ++ rest ∧ before.length = i ∧
      smallCodeAt (insideAfter false before) rest = some code := by
    simp only [CodeAt, smallCodeAt_eq_some_iff]
    constructor
    · rintro ⟨before, digits, after, rfl, hi, hcode⟩
      exact ⟨before, _, rfl, hi, digits, after, rfl, hcode⟩
    · rintro ⟨before, _, rfl, hi, digits, after, rfl, hcode⟩
      exact ⟨before, digits, after, rfl, hi, hcode⟩
  rw [hsplit, Text.exists_split_iff, answerAt]
  refine and_iff_right_of_imp fun h => ?_
  by_contra hlong
  rw [List.drop_of_length_le (by omega)] at h
  cases h

theorem map_lowerCode_codes (inside : Bool) (cs : List Char) :
    (codes cs).map lowerCode = findAll smallCodeAt inside cs := by
  induction cs generalizing inside with
  | nil => rfl
  | cons c cs ih =>
      rw [codes, findAll, smallCodeAt, ← ih]
      cases codeAt? (c :: cs) <;> rfl

/-- The codes of a prompt are listed as they are first met. -/
theorem firstSeen_hexIn (text : String) : FirstSeen (CodeAt text.toList) (hexIn text) := by
  rw [hexIn, map_lowerCode_codes false]
  exact (firstSeen_findAll (fun _ => rfl) false text.toList).congr fun _ _ => codeAt_iff

/-! ## Names -/

/-- A name for a colour stands at a place of a text. -/
def NameAt (cs : List Char) (i : Nat) (v : String) : Prop :=
  ∃ name, (name, v) ∈ named ∧ WholeAt cs name.toList i

/-- A text has the name at a place of the table of names. -/
def RankAt (cs : List Char) (r : Nat) (v : String) : Prop :=
  ∃ name, named[r]? = some (name, v) ∧ ∃ i, WholeAt cs name.toList i

theorem firstSeen_filter (P : String → Bool) (table : List (String × String)) :
    FirstSeen (fun r v => ∃ name, table[r]? = some (name, v) ∧ P name = true)
      (distinct ((table.filter fun entry => P entry.1).map (·.2))) := by
  induction table with
  | nil => exact .of_none (by simp)
  | cons entry table ih =>
      obtain ⟨name, v⟩ := entry
      have hsucc : ∀ r w, (∃ other, ((name, v) :: table)[r + 1]? = some (other, w) ∧
          P other = true) ↔ ∃ other, table[r]? = some (other, w) ∧ P other = true := by
        simp
      cases hname : P name with
      | true =>
          rw [List.filter_cons, if_pos hname]
          refine ih.cons (fun w => ⟨?_, ?_⟩) hsucc
          · rintro ⟨other, hother, -⟩
            exact (Prod.mk.inj (Option.some.inj hother)).2.symm
          · rintro rfl
            exact ⟨name, rfl, hname⟩
      | false =>
          rw [List.filter_cons, if_neg (by simp [hname])]
          exact ih.skip (fun w => by simp [hname]) hsucc

/-- The names of a prompt are listed in the order of the table. -/
theorem firstSeen_namedIn (text : String) : FirstSeen (RankAt text.toList) (namedIn text) := by
  refine (firstSeen_filter (fun name => Text.mentions text.toList name.toList) named).congr ?_
  intro r v
  simp only [RankAt, Text.mentions_iff_wholeAt]

theorem mem_namedIn_iff : v ∈ namedIn text ↔ ∃ i, NameAt text.toList i v := by
  rw [(firstSeen_namedIn text).mem_iff]
  simp only [RankAt, NameAt, List.mem_iff_getElem?]
  constructor
  · rintro ⟨r, name, hr, i, hi⟩
    exact ⟨i, name, ⟨r, hr⟩, hi⟩
  · rintro ⟨i, name, ⟨r, hr⟩, hi⟩
    exact ⟨r, name, hr, i, hi⟩

/-- The colour whose name stands at the start of a text. -/
def nameAt? (inside : Bool) (cs : List Char) : Option String :=
  (named.find? fun (name, _) => wholeAt name.toList inside cs).map (·.2)

/-- The colours that a text names, each once, in the order in which their names are first met. -/
def metIn (text : String) : List String := distinct (findAll nameAt? false text.toList)

theorem named_spelled : ∀ entry ∈ named, ∀ c ∈ entry.1.toList, isWord c = true := by
  have htable : ∀ entry ∈ named, entry.1.toList.all isWord = true := by decide
  exact fun entry hentry => List.all_eq_true.1 (htable entry hentry)

theorem named_injective : ∀ entry ∈ named, ∀ other ∈ named,
    entry.1.toList = other.1.toList → entry = other := by
  have hnodup : (named.map fun entry => entry.1).Nodup := by decide
  intro entry hentry other hother h
  exact List.inj_on_of_nodup_map hnodup hentry hother (String.toList_injective h)

/-- One word only stands at the start of a text. -/
theorem eq_of_wholeAt {inside : Bool} {phrase other : List Char}
    (hphrase : ∀ c ∈ phrase, isWord c = true) (hother : ∀ c ∈ other, isWord c = true)
    (h : wholeAt phrase inside cs = true) (h' : wholeAt other inside cs = true) :
    phrase = other := by
  have hword : ∀ {w : List Char}, (∀ c ∈ w.map Text.fold, isWord c = true) →
      ∀ c ∈ w, isWord c = true := fun hw c hc =>
    Text.isWord_of_isWord_fold (hw _ (List.mem_map_of_mem hc))
  obtain ⟨-, w, after, rfl, rfl, hafter⟩ := wholeAt_iff.1 h
  obtain ⟨-, w', after', hsplit, rfl, hafter'⟩ := wholeAt_iff.1 h'
  rw [← Text.takeWhile_of_head (hword hphrase) hafter, hsplit,
    Text.takeWhile_of_head (hword hother) hafter']

theorem nameAt?_eq_some_iff {inside : Bool} : nameAt? inside cs = some v ↔
    ∃ name, (name, v) ∈ named ∧ wholeAt name.toList inside cs = true := by
  constructor
  · intro h
    obtain ⟨⟨name, v⟩, hfind, rfl⟩ := Option.map_eq_some_iff.1 h
    have hwhole := List.find?_some hfind
    exact ⟨name, List.mem_of_find?_eq_some hfind, hwhole⟩
  · rintro ⟨name, hmem, hwhole⟩
    cases hfind : named.find? fun (name, _) => wholeAt name.toList inside cs with
    | none => exact absurd hwhole (List.find?_eq_none.1 hfind (name, v) hmem)
    | some entry =>
        have hmem' := List.mem_of_find?_eq_some hfind
        have hfound := List.find?_some hfind
        have hsame : entry.1.toList = name.toList :=
          eq_of_wholeAt (named_spelled _ hmem') (named_spelled _ hmem) hfound hwhole
        rw [nameAt?, hfind, named_injective _ hmem' _ hmem hsame]
        rfl

theorem wholeAt_iff_drop {phrase : List Char} : WholeAt cs phrase i ↔ i ≤ cs.length ∧
    wholeAt phrase (insideAfter false (cs.take i)) (cs.drop i) = true := by
  rw [← Text.exists_split_iff
    (P := fun before rest => wholeAt phrase (insideAfter false before) rest = true)]
  simp only [WholeAt, wholeAt_iff, insideAfter_eq_false_iff]
  constructor
  · rintro ⟨before, w, after, rfl, hi, hw, hbefore, hafter⟩
    exact ⟨before, _, rfl, hi, hbefore, w, after, rfl, hw, hafter⟩
  · rintro ⟨before, _, rfl, hi, hbefore, w, after, rfl, hw, hafter⟩
    exact ⟨before, w, after, rfl, hi, hw, hbefore, hafter⟩

theorem nameAt?_nil (inside : Bool) : nameAt? inside [] = none := by
  cases inside <;> decide

theorem nameAt_iff : NameAt cs i v ↔ answerAt nameAt? false cs i = some v := by
  rw [answerAt, nameAt?_eq_some_iff]
  simp only [NameAt, wholeAt_iff_drop]
  constructor
  · rintro ⟨name, hmem, -, hwhole⟩
    exact ⟨name, hmem, hwhole⟩
  · rintro ⟨name, hmem, hwhole⟩
    refine ⟨name, hmem, ?_, hwhole⟩
    by_contra hlong
    have hnone := nameAt?_nil (insideAfter false (cs.take i))
    rw [List.drop_of_length_le (by omega)] at hwhole
    rw [nameAt?_eq_some_iff.2 ⟨name, hmem, hwhole⟩] at hnone
    cases hnone

theorem firstSeen_metIn (text : String) : FirstSeen (NameAt text.toList) (metIn text) :=
  (firstSeen_findAll nameAt?_nil false text.toList).congr fun _ _ => nameAt_iff

end Colour

end Storyboard
