import Mathlib.Data.List.TakeWhile
import Storyboard.Prompt.Quotation
import Storyboard.Proofs.Prompt.Search
/-!
# Quoted words

A prompt quotes what stands between two double quotes, or between two single quotes at the edges of
words, and the first of its quotations is shown: as it is written, less the blanks at its ends.
Apostrophes quote nothing.
-/

namespace Storyboard.Quotation

open Text (search search_eq_some_iff search_eq_none_iff insideAfter insideAfter_eq_false_iff
  endsWord_iff trimBy isBlank isWord)

variable {mark c : Char} {inside : Bool} {cs inner after p raw small : List Char}

/-! ## Quotations at the start of a text -/

theorem upTo?_append_cons (hne : inner ≠ []) (h : mark ∉ inner) :
    upTo? mark (inner ++ mark :: after) = some (inner, after) := by
  have hinner : ∀ c ∈ inner, decide (c ≠ mark) = true := by
    intro c hc
    exact decide_eq_true fun heq => h (heq ▸ hc)
  have htake : (inner ++ mark :: after).takeWhile (· ≠ mark) = inner := by
    rw [List.takeWhile_append_of_pos hinner]
    simp
  have hdrop : (inner ++ mark :: after).dropWhile (· ≠ mark) = mark :: after := by
    rw [List.dropWhile_append_of_pos hinner]
    simp
  unfold upTo?
  rw [htake, hdrop]
  cases inner with
  | nil => exact absurd rfl hne
  | cons c inner => rfl

/-- A quotation goes up to the first closing mark, and is not empty. -/
theorem upTo?_eq_some_iff : upTo? mark cs = some (inner, after) ↔
    inner ≠ [] ∧ mark ∉ inner ∧ cs = inner ++ mark :: after := by
  constructor
  · intro h
    have hsplit := List.takeWhile_append_dropWhile (p := (· ≠ mark)) (l := cs)
    have hfree : mark ∉ cs.takeWhile (· ≠ mark) := by
      intro hmem
      simpa using List.all_eq_true.1 List.all_takeWhile mark hmem
    have hclose := List.head?_dropWhile_not (fun c => decide (c ≠ mark)) cs
    unfold upTo? at h
    split at h
    · cases h
    · rename_i first rest hdrop hne
      obtain ⟨rfl, rfl⟩ := Prod.mk.inj (Option.some.inj h)
      rw [hdrop] at hsplit hclose
      obtain rfl : first = mark := by simpa using hclose
      exact ⟨hne, hfree, hsplit.symm⟩
    · cases h
  · rintro ⟨hne, h, rfl⟩
    exact upTo?_append_cons hne h

/-- Quoted text at the start of a text: between double quotes, or between single quotes that no word
character touches from outside. -/
inductive Quoted (inside : Bool) : List Char → List Char → Prop
  | double {inner after : List Char} (hne : inner ≠ []) (h : '"' ∉ inner) :
      Quoted inside ('"' :: (inner ++ '"' :: after)) inner
  | single {inner after : List Char} (hinside : inside = false) (hne : inner ≠ [])
      (h : '\'' ∉ inner) (hafter : ∀ c ∈ after.head?, isWord c = false) :
      Quoted inside ('\'' :: (inner ++ '\'' :: after)) inner

theorem quotedAt_eq_some_iff : quotedAt inside cs = some inner ↔ Quoted inside cs inner := by
  constructor
  · intro h
    unfold quotedAt at h
    split at h
    · obtain ⟨⟨_, after⟩, hquoted, rfl⟩ := Option.map_eq_some_iff.1 h
      obtain ⟨hne, hfree, rfl⟩ := upTo?_eq_some_iff.1 hquoted
      exact .double hne hfree
    · split at h
      · cases h
      · rename_i hinside
        obtain ⟨⟨_, after⟩, hquoted, hedge⟩ := Option.bind_eq_some_iff.1 h
        obtain ⟨hne, hfree, rfl⟩ := upTo?_eq_some_iff.1 hquoted
        dsimp only at hedge
        split at hedge
        · obtain rfl := Option.some.inj hedge
          exact .single (by simpa using hinside) hne hfree (endsWord_iff.1 ‹_›)
        · cases hedge
    · cases h
  · rintro (⟨hne, hfree⟩ | ⟨hinside, hne, hfree, hafter⟩)
    · rw [quotedAt, upTo?_append_cons hne hfree]
      rfl
    · rw [quotedAt, hinside, upTo?_append_cons hne hfree]
      simp [endsWord_iff.2 hafter]

theorem quotedAt_cons_of_ne (hdouble : c ≠ '"') (hsingle : c ≠ '\'') :
    quotedAt inside (c :: cs) = none := by
  cases hquoted : quotedAt inside (c :: cs) with
  | none => rfl
  | some inner =>
      rcases quotedAt_eq_some_iff.1 hquoted with _ | _
      · exact absurd rfl hdouble
      · exact absurd rfl hsingle

/-! ## The first quotation -/

/-- What stands in quotes after text without any is the first quotation. -/
theorem search_quotedAt_append (hp : ∀ c ∈ p, c ≠ '"' ∧ c ≠ '\'')
    (h : Quoted (insideAfter false p) cs inner) : search quotedAt false (p ++ cs) = some inner := by
  refine search_eq_some_iff.2 ⟨p, cs, rfl, quotedAt_eq_some_iff.2 h, ?_⟩
  intro front back hsplit hlt
  have hback : back = p.drop front.length ++ cs := by
    rw [← List.drop_append_of_le_length (Nat.le_of_lt hlt), hsplit, List.drop_left]
  obtain ⟨hdouble, hsingle⟩ := hp _ (List.getElem_mem hlt)
  rw [hback, List.drop_eq_getElem_cons hlt, List.cons_append]
  exact quotedAt_cons_of_ne hdouble hsingle

/-- Apostrophes inside and after words quote nothing. -/
theorem search_quotedAt_eq_none (hdouble : '"' ∉ raw)
    (hsingle : ∀ before after, raw = before ++ '\'' :: after →
      ∃ c ∈ before.getLast?, isWord c = true) : search quotedAt false raw = none := by
  refine search_eq_none_iff.2 fun before rest hsplit => ?_
  cases hquoted : quotedAt (insideAfter false before) rest with
  | none => rfl
  | some inner =>
      rcases quotedAt_eq_some_iff.1 hquoted with _ | ⟨hedge, -, -, -⟩
      · exact absurd (by simp [hsplit]) hdouble
      · obtain ⟨c, hc, hword⟩ := hsingle before _ hsplit
        rw [insideAfter_eq_false_iff.1 hedge c hc] at hword
        cases hword

/-! ## What is shown -/

/-- What is shown of a prompt that quotes nothing: the words after text, title or label, up to the
first word about place. -/
def caption? (small : List Char) : Option String :=
  (((search captionAt false small).map fun line => trimBy isBlank (beforeClause false line)).filter
    (· ≠ [])).map String.ofList

theorem content?_of_quoted (h : search quotedAt false raw = some inner)
    (hblank : ∃ c ∈ inner, isBlank c = false) :
    content? raw small = some (String.ofList (trimBy isBlank inner)) := by
  have hne : trimBy isBlank inner ≠ [] := by
    rw [ne_eq, Text.trimBy_eq_nil_iff]
    obtain ⟨c, hc, hshown⟩ := hblank
    exact fun hall => absurd (hall c hc) (by simp [hshown])
  unfold content?
  rw [h]
  exact if_pos hne

theorem content?_of_unquoted (h : search quotedAt false raw = none) :
    content? raw small = caption? small := by
  unfold content? caption?
  rw [h]
  cases search captionAt false small with
  | none => rfl
  | some line =>
      dsimp only [Option.map_some]
      cases trimBy isBlank (beforeClause false line) <;> rfl

theorem toList_between (p s q : String) (mark : Char) :
    (p ++ String.singleton mark ++ s ++ String.singleton mark ++ q).toList =
      p.toList ++ mark :: (s.toList ++ mark :: q.toList) := by
  simp

/-- Text without a quote of either kind. -/
def Unquoted (s : String) : Prop := ∀ c ∈ s.toList, c ≠ '"' ∧ c ≠ '\''

/-- Text that is more than blanks. -/
def Visible (s : String) : Prop := ∃ c ∈ s.toList, isBlank c = false

/-- Text whose apostrophes follow word characters. -/
def Apostrophic (s : String) : Prop :=
  ∀ before after, s.toList = before ++ '\'' :: after → ∃ c ∈ before.getLast?, isWord c = true

instance : DecidablePred Unquoted := fun s =>
  List.decidableBAll (fun c => c ≠ '"' ∧ c ≠ '\'') s.toList

instance : DecidablePred Visible := fun s =>
  List.decidableBEx (fun c => isBlank c = false) s.toList

/-- What stands between the first quotes of a prompt is shown as it is written, less the blanks at
its ends; a prompt that has apostrophes for its only quotes shows what its caption says. -/
theorem content?_of_quotes (small : List Char) :
    (∀ p s q : String, Unquoted p → Visible s → '"' ∉ s.toList →
      content? (p ++ "\"" ++ s ++ "\"" ++ q).toList small = some (Text.trim s)) ∧
    (∀ p s q : String, Unquoted p → Visible s → '\'' ∉ s.toList →
      (∀ c ∈ p.toList.getLast?, isWord c = false) → (∀ c ∈ q.toList.head?, isWord c = false) →
      content? (p ++ "'" ++ s ++ "'" ++ q).toList small = some (Text.trim s)) ∧
    ∀ raw : String, Apostrophic raw → '"' ∉ raw.toList →
      search quotedAt false raw.toList = none ∧ content? raw.toList small = caption? small := by
  refine ⟨?double, ?single, ?apostrophes⟩
  case double =>
    intro p s q hp hblank hs
    have hne : s.toList ≠ [] := List.ne_nil_of_mem hblank.choose_spec.1
    rw [show (p ++ "\"" ++ s ++ "\"" ++ q).toList = _ from toList_between p s q '"']
    exact content?_of_quoted (search_quotedAt_append hp (.double hne hs)) hblank
  case single =>
    intro p s q hp hblank hs hbefore hafter
    have hne : s.toList ≠ [] := List.ne_nil_of_mem hblank.choose_spec.1
    have hinside : insideAfter false p.toList = false := insideAfter_eq_false_iff.2 hbefore
    rw [show (p ++ "'" ++ s ++ "'" ++ q).toList = _ from toList_between p s q '\'']
    exact content?_of_quoted (search_quotedAt_append hp (.single hinside hne hs hafter)) hblank
  case apostrophes =>
    intro raw hsingle hdouble
    have hnone := search_quotedAt_eq_none hdouble hsingle
    exact ⟨hnone, content?_of_unquoted hnone⟩

/-- Quotes of the other kind are part of what is shown, and an apostrophe leaves the caption. -/
theorem content?_of_quotes_banner :
    (Unquoted "write: " ∧ Visible " Don't! " ∧ '"' ∉ " Don't! ".toList ∧
      content? "write: \" Don't! \" in 'red'".toList [] = some "Don't!") ∧
    (Unquoted "write: " ∧ Visible "Go \"Now\"" ∧ '\'' ∉ "Go \"Now\"".toList ∧
      content? "write: 'Go \"Now\"', please".toList [] = some "Go \"Now\"") ∧
    Apostrophic "it's title Hi" ∧ '"' ∉ "it's title Hi".toList ∧
      content? "it's title Hi".toList "it's title hi".toList = some "hi" := by
  have hopen : Unquoted "write: " := by decide +kernel
  have hedge : ∀ c ∈ "write: ".toList.getLast?, isWord c = false := by
    rw [show "write: ".toList.getLast? = some ' ' by decide +kernel]
    rintro c ⟨⟩
    decide
  have hafter : ∀ c ∈ ", please".toList.head?, isWord c = false := by
    rw [show ", please".toList.head? = some ',' by decide +kernel]
    rintro c ⟨⟩
    decide
  have hfollows : Apostrophic "it's title Hi" := by
    intro before after hsplit
    have hspelled : "it's title Hi".toList =
        ['i', 't', '\'', 's', ' ', 't', 'i', 't', 'l', 'e', ' ', 'H', 'i'] := by decide +kernel
    obtain rfl : before = ['i', 't'] := by
      simp only [hspelled, List.cons_eq_append_iff] at hsplit
      simp at hsplit
      exact hsplit.1
    exact ⟨'t', rfl, by decide⟩
  refine ⟨⟨hopen, by decide +kernel, by decide +kernel, ?_⟩,
    ⟨hopen, by decide +kernel, by decide +kernel, ?_⟩, hfollows, by decide +kernel, ?_⟩
  · exact (content?_of_quotes []).1 "write: " " Don't! " " in 'red'" hopen (by decide +kernel)
      (by decide +kernel)
  · exact (content?_of_quotes []).2.1 "write: " "Go \"Now\"" ", please" hopen
      (by decide +kernel) (by decide +kernel) hedge hafter
  · have hcaption : caption? "it's title hi".toList = some "hi" := by decide +kernel
    rw [← hcaption]
    exact ((content?_of_quotes _).2.2 "it's title Hi" hfollows (by decide +kernel)).2

end Storyboard.Quotation
