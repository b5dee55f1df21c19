import Storyboard.Proofs.Prompt.Digits
/-!
# How many a prompt asks for

The count is between one and the most that one prompt creates.  Where a number stands before a noun
for shapes, the first such number is the count, moved into that range.
-/

namespace Storyboard

namespace Measure

open Text (ShortRuns isDigit isBlank search_eq_some_iff)

variable {cs before ds : List Char}

theorem count_range {n : Nat} (h : count cs = .ok n) : 1 ≤ n ∧ n ≤ maxCount := by
  have hmax : 1 ≤ maxCount := by decide
  unfold count at h
  split at h
  · split at h
    · cases h
    · rw [← Except.ok.inj h]
      omega
  · split at h
    · rw [← Except.ok.inj h]
      omega
    · rw [← Except.ok.inj h]
      omega

/-- Digits, blanks or none, and a noun for shapes stand after a part of a text. -/
def Counts (cs before ds : List Char) : Prop :=
  ds ≠ [] ∧ (∀ d ∈ ds, isDigit d = true) ∧ ∃ blanks noun after,
    cs = before ++ ds ++ blanks ++ noun.toList ++ after ∧ (∀ c ∈ blanks, isBlank c = true) ∧
      noun ∈ shapeNouns

/-- A noun for shapes starts with a letter. -/
theorem exists_letter_of_noun {noun : String} (h : noun ∈ shapeNouns) :
    ∃ c rest, noun.toList = c :: rest ∧ isDigit c = false ∧ isBlank c = false := by
  have hall : ∀ noun ∈ shapeNouns,
      (noun.toList.head?.any fun c => !isDigit c && !isBlank c) = true := by decide
  have hhead := hall noun h
  cases hnoun : noun.toList with
  | nil => simp [hnoun] at hhead
  | cons c rest =>
      rw [hnoun] at hhead
      exact ⟨c, rest, rfl, by simpa using hhead⟩

/-- Blanks before a noun for shapes are no digits, and they end where the noun starts. -/
theorem split_blanks_append {blanks : List Char} {noun : String}
    (hblanks : ∀ c ∈ blanks, isBlank c = true) (hnoun : noun ∈ shapeNouns) (after : List Char) :
    (blanks ++ (noun.toList ++ after)).takeWhile isDigit = [] ∧
      (blanks ++ (noun.toList ++ after)).dropWhile isDigit = blanks ++ (noun.toList ++ after) ∧
      (blanks ++ (noun.toList ++ after)).dropWhile isBlank = noun.toList ++ after := by
  obtain ⟨c, rest, hletter, hdigit, hblank⟩ := exists_letter_of_noun hnoun
  rw [List.dropWhile_append_of_pos hblanks]
  cases blanks with
  | nil => simp [hletter, hdigit, hblank]
  | cons b blanks =>
      have hb := Text.not_isDigit_of_isBlank (hblanks b List.mem_cons_self)
      simp [hletter, hb, hblank]

theorem countAt_eq_some_iff : countAt cs = some ds ↔ Counts cs [] ds := by
  constructor
  · intro h
    unfold countAt at h
    split at h
    · cases h
    · rename_i hne
      split at h
      · rename_i hnoun
        obtain ⟨noun, hmem, hrest⟩ := List.any_eq_true.1 hnoun
        obtain ⟨after, hafter⟩ := Option.isSome_iff_exists.1 hrest
        obtain rfl := Option.some.inj h
        refine ⟨hne, fun d hd => List.all_eq_true.1 List.all_takeWhile d hd,
          (cs.dropWhile isDigit).takeWhile isBlank, noun, after, ?_,
          fun c hc => List.all_eq_true.1 List.all_takeWhile c hc, hmem⟩
        rw [List.nil_append, List.append_assoc, ← Placeholder.after?_eq_some_iff.1 hafter,
          List.append_assoc, List.takeWhile_append_dropWhile, List.takeWhile_append_dropWhile]
      · cases h
  · rintro ⟨hne, hds, blanks, noun, after, rfl, hblanks, hnoun⟩
    obtain ⟨hnone, hkept, hgap⟩ := split_blanks_append hblanks hnoun after
    have hfound : (shapeNouns.any fun noun' =>
        (Text.after? noun'.toList (noun.toList ++ after)).isSome) = true :=
      List.any_eq_true.2 ⟨noun, hnoun, by rw [Placeholder.after?_eq_some_iff.2 rfl]; rfl⟩
    obtain ⟨d, ds, rfl⟩ := List.exists_cons_of_ne_nil hne
    unfold countAt
    rw [List.nil_append, List.append_assoc, List.append_assoc, List.takeWhile_append_of_pos hds,
      List.dropWhile_append_of_pos hds, hnone, hkept, hgap, List.append_nil]
    simp only [hfound, if_true]

theorem counts_iff :
    Counts cs before ds ↔ ∃ rest, cs = before ++ rest ∧ countAt rest = some ds := by
  simp only [countAt_eq_some_iff, Counts, List.nil_append]
  constructor
  · rintro ⟨hne, hds, blanks, noun, after, rfl, hblanks, hnoun⟩
    exact ⟨ds ++ blanks ++ noun.toList ++ after, by simp, hne, hds, blanks, noun, after, rfl,
      hblanks, hnoun⟩
  · rintro ⟨rest, rfl, hne, hds, blanks, noun, after, rfl, hblanks, hnoun⟩
    exact ⟨hne, hds, blanks, noun, after, by simp, hblanks, hnoun⟩

/-- The first number that stands before a noun for shapes. -/
def CountsFirst (cs ds : List Char) : Prop :=
  ∃ before, Counts cs before ds ∧
    ∀ before' ds', Counts cs before' ds' → before.length ≤ before'.length

theorem search_countAt_eq_some_iff :
    Text.search (fun _ cs => countAt cs) false cs = some ds ↔ CountsFirst cs ds := by
  rw [search_eq_some_iff]
  constructor
  · rintro ⟨before, rest, hsplit, hrule, hfirst⟩
    refine ⟨before, counts_iff.2 ⟨rest, hsplit, hrule⟩, fun before' ds' h => ?_⟩
    obtain ⟨rest', hsplit', hrule'⟩ := counts_iff.1 h
    by_contra hlt
    rw [hfirst before' rest' hsplit' (Nat.lt_of_not_le hlt)] at hrule'
    cases hrule'
  · rintro ⟨before, h, hfirst⟩
    obtain ⟨rest, hsplit, hrule⟩ := counts_iff.1 h
    refine ⟨before, rest, hsplit, hrule, fun front back hsplit' hlt => ?_⟩
    by_contra hsome
    obtain ⟨ds', hds'⟩ := Option.ne_none_iff_exists'.1 hsome
    exact absurd (hfirst front ds' (counts_iff.2 ⟨back, hsplit', hds'⟩)) (Nat.not_le_of_lt hlt)

/-- The first number before a noun for shapes is the count, moved into its range. -/
theorem count_eq_of_first (hlength : ds.length ≤ Fault.digitLimit) (h : Counts cs before ds)
    (hfirst : ∀ before' ds', Counts cs before' ds' → before.length ≤ before'.length) :
    count cs = .ok (max 1 (min maxCount (digitsValue ds))) := by
  rw [count, search_countAt_eq_some_iff.2 ⟨before, h, hfirst⟩]
  exact if_neg (by omega)

/-- The first number before a noun for shapes has too many digits to be read. -/
def Overlong (cs : List Char) : Prop := ∃ ds, CountsFirst cs ds ∧ Fault.digitLimit < ds.length

theorem count_of_overlong (h : Overlong cs) :
    ∃ digits, count cs = .error (.tooManyDigits (some digits)) := by
  obtain ⟨ds, hfirst, hlong⟩ := h
  rw [count, search_countAt_eq_some_iff.2 hfirst]
  exact ⟨ds.length, if_pos hlong⟩

theorem count_of_not_overlong (h : ¬ Overlong cs) : ∃ n, count cs = .ok n := by
  unfold count
  split
  · rename_i ds hfound
    have hshort : ¬ Fault.digitLimit < ds.length :=
      fun hlong => h ⟨ds, search_countAt_eq_some_iff.1 hfound, hlong⟩
    exact ⟨_, if_neg hshort⟩
  · split <;> exact ⟨_, rfl⟩

end Measure

theorem Features.count_range {α : Type} [Scalar α] {raw : String} {f : Features α}
    (h : ofText raw = .ok f) : 1 ≤ f.count ∧ f.count ≤ Measure.maxCount := by
  unfold ofText at h
  obtain ⟨count, hcount, rfl⟩ := map_eq_ok_iff.1 h
  exact Measure.count_range hcount

end Storyboard
