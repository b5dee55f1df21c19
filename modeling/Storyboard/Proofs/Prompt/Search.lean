import Mathlib.Data.List.SplitBy
import Mathlib.Data.List.TakeWhile
import Storyboard.Text.Phrase
/-!
# Leftmost search

A search gives the answer of the first place where its rule has one.  For a phrase of word
characters such a place is a word of the text: characters that the phrase folds to, with no word
character on either side of them.
-/

namespace Storyboard.Text

variable {β : Type} {rule : Bool → List Char → Option β} {inside : Bool} {c : Char}
  {cs w phrase : List Char}

/-- Whether a word character stands just before what follows a part of a text. -/
def insideAfter (inside : Bool) (before : List Char) : Bool :=
  (before.getLast?.map isWord).getD inside

@[simp] theorem insideAfter_nil : insideAfter inside [] = inside := rfl

@[simp] theorem insideAfter_cons (before : List Char) :
    insideAfter inside (c :: before) = insideAfter (isWord c) before := by
  unfold insideAfter
  rw [List.getLast?_cons]
  cases before.getLast? <;> rfl

theorem forall_split_cons {P : List Char → List Char → Prop} :
    (∀ before rest, c :: cs = before ++ rest → P before rest) ↔
      P [] (c :: cs) ∧ ∀ before rest, cs = before ++ rest → P (c :: before) rest := by
  constructor
  · exact fun h => ⟨h [] _ rfl, fun before rest hsplit => h (c :: before) rest (hsplit ▸ rfl)⟩
  · rintro ⟨hhead, htail⟩ before rest hsplit
    rcases List.cons_eq_append_iff.1 hsplit with ⟨rfl, rfl⟩ | ⟨before, rfl, hrest⟩
    · exact hhead
    · exact htail before rest hrest

theorem search_cons_of_none (h : rule inside (c :: cs) = none) :
    search rule inside (c :: cs) = search rule (isWord c) cs := by
  rw [search, h]

theorem search_cons_of_some {answer : β} (h : rule inside (c :: cs) = some answer) :
    search rule inside (c :: cs) = some answer := by
  rw [search, h]

theorem search_eq_none_iff : search rule inside cs = none ↔
    ∀ before rest, cs = before ++ rest → rule (insideAfter inside before) rest = none := by
  induction cs generalizing inside with
  | nil => simp [search]
  | cons c cs ih =>
      simp only [forall_split_cons, insideAfter_nil, insideAfter_cons, ← ih]
      cases hrule : rule inside (c :: cs) with
      | none => simp [search_cons_of_none hrule]
      | some answer => simp [search_cons_of_some hrule]

/-- What a search finds is what the rule says at the first place where it says something. -/
theorem search_eq_some_iff {answer : β} : search rule inside cs = some answer ↔
    ∃ before rest, cs = before ++ rest ∧ rule (insideAfter inside before) rest = some answer ∧
      ∀ front back, cs = front ++ back → front.length < before.length →
        rule (insideAfter inside front) back = none := by
  induction cs generalizing inside with
  | nil => simp [search]
  | cons c cs ih =>
      simp only [forall_split_cons, insideAfter_nil, insideAfter_cons]
      cases hrule : rule inside (c :: cs) with
      | some found =>
          rw [search_cons_of_some hrule, ← hrule]
          constructor
          · exact fun h => ⟨[], c :: cs, rfl, h, by simp⟩
          · rintro ⟨before, rest, hsplit, hanswer, hfirst, -⟩
            rcases List.cons_eq_append_iff.1 hsplit with ⟨rfl, rfl⟩ | ⟨before, rfl, -⟩
            · exact hanswer
            · exact absurd (hfirst (Nat.succ_pos _)) (by simp [hrule])
      | none =>
          rw [search_cons_of_none hrule, ih]
          constructor
          · rintro ⟨before, rest, hsplit, hanswer, hfirst⟩
            refine ⟨c :: before, rest, hsplit ▸ rfl, by rwa [insideAfter_cons], fun _ => rfl, ?_⟩
            intro front back hfront hlt
            exact hfirst front back hfront (Nat.lt_of_succ_lt_succ hlt)
          · rintro ⟨before, rest, hsplit, hanswer, -, hfirst⟩
            rcases List.cons_eq_append_iff.1 hsplit with ⟨rfl, rfl⟩ | ⟨before, rfl, htail⟩
            · exact absurd hanswer (by simp [hrule])
            · rw [insideAfter_cons] at hanswer
              exact ⟨before, rest, htail, hanswer, fun front back hfront hlt =>
                hfirst front back hfront (Nat.succ_lt_succ hlt)⟩

/-- What a search finds, its rule gives at some place of the text. -/
theorem exists_of_search {answer : β} (h : search rule inside cs = some answer) :
    ∃ b t, t <:+ cs ∧ rule b t = some answer := by
  obtain ⟨before, rest, hsplit, hrule, -⟩ := search_eq_some_iff.1 h
  exact ⟨_, rest, ⟨before, hsplit.symm⟩, hrule⟩

theorem isSome_search_iff : (search rule inside cs).isSome = true ↔
    ∃ before rest, cs = before ++ rest ∧
      (rule (insideAfter inside before) rest).isSome = true := by
  simp only [Option.isSome_iff_ne_none, ne_eq, search_eq_none_iff, not_forall, exists_prop]

theorem insideAfter_eq_false_iff {before : List Char} :
    insideAfter false before = false ↔ ∀ c ∈ before.getLast?, isWord c = false := by
  unfold insideAfter
  cases before.getLast? <;> simp

theorem endsWord_iff : endsWord cs = true ↔ ∀ c ∈ cs.head?, isWord c = false := by
  cases cs <;> simp [endsWord]

theorem getD_map_endsWord_iff {rest? : Option (List Char)} :
    (rest?.map endsWord).getD false = true ↔
      ∃ rest, rest? = some rest ∧ ∀ c ∈ rest.head?, isWord c = false := by
  cases rest? with
  | none => simp
  | some rest => simp [endsWord_iff]

/-! ## Words -/

/-- A word of a text: word characters, and none just before them or after them. -/
def WordIn (cs w : List Char) : Prop :=
  w ≠ [] ∧ (∀ c ∈ w, isWord c = true) ∧ ∃ before after, cs = before ++ w ++ after ∧
    (∀ c ∈ before.getLast?, isWord c = false) ∧ ∀ c ∈ after.head?, isWord c = false

theorem isWord_of_isChain (hchain : w.IsChain fun a b => isWord a == isWord b)
    (hhead : (w.head?.map isWord).getD false = true) : ∀ c ∈ w, isWord c = true := by
  cases w with
  | nil => exact List.forall_mem_nil _
  | cons a w =>
      have hsame : (a :: w).Pairwise fun a b => isWord a = isWord b := by
        have : IsTrans Char fun a b => isWord a = isWord b := ⟨fun _ _ _ => Eq.trans⟩
        exact List.isChain_iff_pairwise.1 (hchain.imp fun _ _ h => by simpa using h)
      refine List.forall_mem_cons.2 ⟨hhead, fun c hc => ?_⟩
      rw [← List.rel_of_pairwise_cons hsame hc]
      exact hhead

theorem mem_words_iff : w ∈ words cs ↔ WordIn cs w := by
  rw [words, List.mem_filter]
  constructor
  · rintro ⟨hmem, hhead⟩
    have hword := isWord_of_isChain (List.isChain_of_mem_splitBy hmem) hhead
    have hne := List.ne_nil_of_mem_splitBy hmem
    have hother : ∀ part ∈ cs.splitBy (fun a b => isWord a == isWord b), part ≠ [] :=
      fun _ hpart => List.ne_nil_of_mem_splitBy hpart
    have hparts := List.isChain_getLast_head_splitBy (fun a b => isWord a == isWord b) cs
    have hflat := List.flatten_splitBy (fun a b => isWord a == isWord b) cs
    obtain ⟨front, back, hsplit⟩ := List.append_of_mem hmem
    simp only [hsplit] at hother hparts hflat
    refine ⟨hne, hword, front.flatten, back.flatten, by simp [← hflat], ?_, ?_⟩
    · rcases front.eq_nil_or_concat with rfl | ⟨front, part, rfl⟩
      · simp
      · have hpart := hother part (by simp)
        obtain ⟨_, hw, hedge⟩ := (List.isChain_append.1 hparts).2.2 part (by simp) w (by simp)
        rw [hword _ (List.head_mem hw)] at hedge
        simpa [hpart, List.getLast?_append_of_ne_nil, List.getLast?_eq_some_getLast] using hedge
    · cases back with
      | nil => simp
      | cons part back =>
          have hpart := hother part (by simp)
          obtain ⟨hw, _, hedge⟩ := (List.isChain_cons_cons.1 (List.isChain_append.1 hparts).2.1).1
          rw [hword _ (List.getLast_mem hw)] at hedge
          simpa [hpart, List.head?_append_of_ne_nil, List.head?_eq_some_head] using hedge
  · rintro ⟨hne, hword, before, after, rfl, hbefore, hafter⟩
    have hchain : w.IsChain fun a b => isWord a == isWord b := by
      refine List.Pairwise.isChain (List.pairwise_of_forall_mem_list fun a ha b hb => ?_)
      rw [hword a ha, hword b hb]
      rfl
    rw [List.append_assoc, List.splitBy_append, List.splitBy_append,
      List.splitBy_of_isChain hne hchain]
    · refine ⟨by simp, ?_⟩
      cases w with
      | nil => exact absurd rfl hne
      | cons a w => exact hword a List.mem_cons_self
    · intro x hx y hy
      rw [hword x (List.mem_of_mem_getLast? hx), hafter y hy]
      rfl
    · intro x hx y hy
      rw [List.head?_append_of_ne_nil _ hne] at hy
      rw [hbefore x hx, hword y (List.mem_of_mem_head? hy)]
      rfl

/-! ## Ends of a text -/

theorem trimBy_eq_nil_iff {p : Char → Bool} : trimBy p cs = [] ↔ ∀ c ∈ cs, p c = true := by
  unfold trimBy
  rw [List.reverse_eq_nil_iff, List.dropWhile_eq_nil_iff]
  constructor
  · intro h c hc
    rw [← List.takeWhile_append_dropWhile (p := p) (l := cs), List.mem_append] at hc
    rcases hc with hc | hc
    · exact List.all_eq_true.1 List.all_takeWhile c hc
    · exact h c (List.mem_reverse.2 hc)
  · intro h c hc
    exact h c ((List.dropWhile_sublist p).subset (List.mem_reverse.1 hc))

end Storyboard.Text
