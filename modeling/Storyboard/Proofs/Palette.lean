import Storyboard.Palette
import Storyboard.Proofs.Prompt.Colours
/-!
# Palettes of prompts

The colour that a prompt gives an element is the first of its palette, unless it names no colour:
then the palette is that of the caller.  Codes come first, as they are met in the prompt.  Names
follow in the order of the table of names, which is that of the prompt only when no colour of the
palette is met after one that the table ranks below it.
-/

namespace Storyboard.Palette

open Colour (CodeAt NameAt RankAt hexIn namedIn metIn codes lowerCode isHexDigit distinct
  distinct_append nodup_distinct firstSeen_hexIn firstSeen_namedIn firstSeen_metIn mem_namedIn_iff)

variable {text c colour : String} {fallback : List String}

/-! ## The colours of a prompt -/

theorem lower_lower_of_plain {s : String} (h : ∀ c ∈ s.toList, c.toNat < 128) :
    Text.lower (Text.lower s) = Text.lower s := by
  have hsmall : ∀ n < 128, (Char.ofNat n).toLower.toNat < 128 ∧
      (Char.ofNat n).toLower.toLower = (Char.ofNat n).toLower := by decide +kernel
  have hlower : ∀ c ∈ s.toList, c.toLower.toNat < 128 ∧ c.toLower.toLower = c.toLower := by
    intro c hc
    rw [← Char.ofNat_toNat c]
    exact hsmall _ (h c hc)
  simp only [Text.lower, String.toList_ofList, Text.lowerFrom_of_plain [] h]
  rw [Text.lowerFrom_of_plain, List.map_map]
  · refine congrArg String.ofList (List.map_congr_left fun c hc => ?_)
    exact (hlower c hc).2
  · intro d hd
    obtain ⟨c, hc, rfl⟩ := List.mem_map.1 hd
    exact (hlower c hc).1

theorem plain_code {digits : List Char} (h : ∀ d ∈ digits, isHexDigit d = true) :
    ∀ c ∈ (String.ofList ('#' :: digits)).toList, c.toNat < 128 := by
  rw [String.toList_ofList]
  exact List.forall_mem_cons.2 ⟨by decide, fun d hd => Colour.toNat_of_isHexDigit (h d hd)⟩

theorem exists_of_mem_codes {cs : List Char} (h : c ∈ codes cs) :
    ∃ digits, (∀ d ∈ digits, isHexDigit d = true) ∧ c = String.ofList ('#' :: digits) := by
  induction cs with
  | nil => cases h
  | cons d cs ih =>
      unfold codes at h
      split at h
      · rename_i digits hcode
        obtain ⟨-, -, -, hhex, -⟩ := Colour.codeAt?_eq_some_iff.1 hcode
        rcases List.mem_cons.1 h with rfl | h
        · exact ⟨digits, hhex, rfl⟩
        · exact ih h
      · exact ih h

theorem lower_of_mem_hexIn (h : c ∈ hexIn text) : Text.lower c = c := by
  obtain ⟨i, before, digits, after, -, -, -, hhex, -, rfl⟩ := ((firstSeen_hexIn text).mem_iff c).1 h
  exact lower_lower_of_plain (plain_code hhex)

theorem lower_of_mem_namedIn (h : c ∈ namedIn text) : Text.lower c = c := by
  have htable : ∀ entry ∈ Colour.named, Text.lower entry.2 = entry.2 := by decide
  obtain ⟨i, name, hmem, -⟩ := mem_namedIn_iff.1 h
  exact htable (name, c) hmem

/-- The names of a prompt that stand for no code of it. -/
def otherNames (text : String) : List String := (namedIn text).filter (· ∉ hexIn text)

theorem named_eq (text : String) : named text = hexIn text ++ otherNames text :=
  distinct_append (nodup_distinct _) (nodup_distinct _)

theorem lower_of_mem_named (h : c ∈ named text) : Text.lower c = c := by
  rw [named_eq, List.mem_append] at h
  rcases h with hcode | hname
  · exact lower_of_mem_hexIn hcode
  · exact lower_of_mem_namedIn (List.mem_filter.1 hname).1

/-- The first colour that a prompt names is the one that it gives an element, in small letters. -/
theorem head?_named (text : String) : (named text).head? = (Colour.of? text).map Text.lower := by
  rw [named_eq, otherNames, Colour.of?]
  cases hcodes : codes text.toList with
  | nil =>
      have hnone : hexIn text = [] := by rw [hexIn, hcodes]; rfl
      rw [hnone]
      cases hnames : namedIn text with
      | nil => rfl
      | cons name rest =>
          have hmem : name ∈ namedIn text := by rw [hnames]; exact List.mem_cons_self
          simp [lower_of_mem_namedIn hmem]
  | cons code rest =>
      have hmem : code ∈ codes text.toList := by rw [hcodes]; exact List.mem_cons_self
      obtain ⟨digits, hhex, rfl⟩ := exists_of_mem_codes hmem
      rw [hexIn, hcodes]
      exact congrArg some (Colour.lower_code hhex).symm

theorem of?_eq_none_iff : Colour.of? text = none ↔ named text = [] := by
  rw [← List.head?_eq_none_iff, head?_named, Option.map_eq_none_iff]

/-! ## Palettes -/

/-- The palette of a prompt without colours: that of the caller, or the generic one. -/
def standIn (fallback : List String) : Palette := (ofList? (fallback.take limit)).getD generic

theorem resolve_of_unnamed (h : named text = []) : resolve text fallback = standIn fallback := by
  rw [resolve, h]
  rfl

theorem toList_resolve (fallback : List String) (h : named text ≠ []) :
    (resolve text fallback).toList = (named text).take limit := by
  obtain ⟨first, rest, hnamed⟩ := List.exists_cons_of_ne_nil h
  rw [resolve, hnamed]
  rfl

theorem toList_injective {p q : Palette} (h : p.toList = q.toList) : p = q := by
  obtain ⟨hfirst, hrest⟩ := List.cons.inj h
  cases p
  cases q
  exact congrArg₂ Palette.mk hfirst hrest

theorem resolve_congr (h : named text ≠ []) (fallback others : List String) :
    resolve text fallback = resolve text others :=
  toList_injective ((toList_resolve fallback h).trans (toList_resolve others h).symm)

/-- A palette that is made of the colours of a prompt, with the colour that the prompt gives an
element in front: codes as they are met, then names, none twice, as far as there is room. -/
structure Agrees (p : Palette) (text colour : String) : Prop where
  first : p.first = Text.lower colour
  small : ∀ c ∈ p.toList, Text.lower c = c
  nodup : p.toList.Nodup
  length : 1 ≤ p.toList.length ∧ p.toList.length ≤ 6
  order : ∃ codes names, p.toList = (codes ++ names).take 6 ∧
    FirstSeen (CodeAt text.toList) codes ∧ names.Nodup ∧
    ∀ v, v ∈ names ↔ v ∉ codes ∧ ∃ i, NameAt text.toList i v

theorem named_ne_nil (h : Colour.of? text = some colour) : named text ≠ [] := by
  rw [ne_eq, ← of?_eq_none_iff, h]
  simp

theorem agrees_resolve (h : Colour.of? text = some colour) (fallback : List String) :
    Agrees (resolve text fallback) text colour := by
  have hlist := toList_resolve fallback (named_ne_nil h)
  constructor
  case first =>
    have hhead : (resolve text fallback).toList.head? = some (Text.lower colour) := by
      rw [hlist, List.head?_take, if_neg (by decide), head?_named, h]
      rfl
    exact Option.some.inj hhead
  case small =>
    rw [hlist]
    exact fun c hc => lower_of_mem_named (List.mem_of_mem_take hc)
  case nodup =>
    rw [hlist]
    exact (nodup_distinct _).take
  case length =>
    refine ⟨Nat.succ_pos _, ?_⟩
    rw [hlist, List.length_take]
    exact Nat.min_le_left _ _
  case order =>
    refine ⟨hexIn text, otherNames text, ?_, firstSeen_hexIn text,
      (firstSeen_namedIn text).nodup.filter _, fun v => ?_⟩
    · rw [hlist, named_eq]
      rfl
    · rw [otherNames, List.mem_filter, mem_namedIn_iff]
      simp [and_comm]

theorem standIn_ne : standIn ["#000000"] ≠ standIn ["#ffffff"] := by
  decide

/-- A prompt gives an element no colour exactly when its palette is left to the caller; otherwise
its palette is made of its own colours whatever the caller's are, and agrees with that colour. -/
theorem resolve_agrees (text : String) (fallback : List String) :
    (Colour.of? text = none ↔ ∀ others, resolve text others = standIn others) ∧
      ∀ colour, Colour.of? text = some colour →
        (∀ others, resolve text others = resolve text fallback) ∧
          Agrees (resolve text fallback) text colour := by
  refine ⟨⟨fun hnone others => ?_, fun hleft => ?_⟩, fun colour hsome => ⟨fun others => ?_, ?_⟩⟩
  · exact resolve_of_unnamed (of?_eq_none_iff.1 hnone)
  · by_contra hsome
    have hne : named text ≠ [] := mt of?_eq_none_iff.2 hsome
    apply standIn_ne
    rw [← hleft, ← hleft]
    exact resolve_congr hne _ _
  · exact resolve_congr (named_ne_nil hsome) _ _
  · exact agrees_resolve hsome fallback

/-- Codes stand before names, and a code with capitals is the one that an element is given. -/
theorem resolve_agrees_mixed :
    Colour.of? "Red and #ABC, black on navy" = some "#ABC" ∧
      Agrees (resolve "Red and #ABC, black on navy" []) "Red and #ABC, black on navy" "#ABC" := by
  have hof : Colour.of? "Red and #ABC, black on navy" = some "#ABC" := by decide +kernel
  exact ⟨hof, ((resolve_agrees _ _).2 _ hof).2⟩

/-! ## The order of the names -/

theorem mem_metIn_iff : c ∈ metIn text ↔ c ∈ namedIn text := by
  rw [mem_namedIn_iff, (firstSeen_metIn text).mem_iff]

theorem toList_resolve_of_uncoded (fallback : List String)
    (hcodes : ∀ i c, ¬ CodeAt text.toList i c) (hname : ∃ i v, NameAt text.toList i v) :
    (resolve text fallback).toList = (namedIn text).take limit := by
  obtain ⟨i, v, hv⟩ := hname
  have hnamed : named text = namedIn text := by
    rw [named_eq, otherNames, (firstSeen_hexIn text).eq_nil_iff.2 hcodes]
    simp
  have hne : named text ≠ [] := by
    rw [hnamed]
    exact List.ne_nil_of_mem (mem_namedIn_iff.2 ⟨i, hv⟩)
  rw [toList_resolve fallback hne, hnamed]

/-- Without codes the palette of a prompt starts with the names that the table puts first.  These
are the names that the prompt puts first, in its order, exactly when each of them is met before all
that the table puts after it. -/
theorem resolve_met_iff (fallback : List String) (hcodes : ∀ i c, ¬ CodeAt text.toList i c)
    (hname : ∃ i v, NameAt text.toList i v) :
    FirstSeen (RankAt text.toList) (namedIn text) ∧
      (resolve text fallback).toList = (namedIn text).take limit ∧
      FirstSeen (NameAt text.toList) (metIn text) ∧
      ((resolve text fallback).toList = (metIn text).take limit ↔
        (namedIn text).Pairwise fun a b =>
          a ∈ (namedIn text).take limit → Earlier (NameAt text.toList) a b) := by
  have hranked := firstSeen_namedIn text
  have hmet := firstSeen_metIn text
  have hlist := toList_resolve_of_uncoded fallback hcodes hname
  refine ⟨hranked, hlist, hmet, ?_⟩
  rw [hlist]
  exact hmet.take_eq_iff hranked.nodup (fun _ => mem_metIn_iff.symm) limit

/-- Two names of one colour are met where the first of them stands. -/
theorem resolve_met_iff_rocks :
    (∀ i c, ¬ CodeAt "Gray rocks, black and navy on gold".toList i c) ∧
      (∃ i v, NameAt "Gray rocks, black and navy on gold".toList i v) ∧
      (resolve "Gray rocks, black and navy on gold" []).toList = ["#9ca3af", "#0f172a", "#f59e0b"] ∧
      ((namedIn "Gray rocks, black and navy on gold").Pairwise fun a b =>
        a ∈ (namedIn "Gray rocks, black and navy on gold").take limit →
          Earlier (NameAt "Gray rocks, black and navy on gold".toList) a b) := by
  have hcodes := (firstSeen_hexIn "Gray rocks, black and navy on gold").eq_nil_iff.1
    (by decide +kernel)
  have hmem : "#9ca3af" ∈ namedIn "Gray rocks, black and navy on gold" := by decide +kernel
  obtain ⟨i, hname⟩ := mem_namedIn_iff.1 hmem
  obtain ⟨-, -, -, hiff⟩ := resolve_met_iff [] hcodes ⟨i, _, hname⟩
  exact ⟨hcodes, ⟨i, _, hname⟩, by decide +kernel, hiff.1 (by decide +kernel)⟩

/-- Blue is met before red, and the palette has red before blue. -/
theorem resolve_unmet : (∀ i c, ¬ CodeAt "blue and red".toList i c) ∧
    FirstSeen (NameAt "blue and red".toList) ["#3b82f6", "#ef4444"] ∧
    ∀ fallback, (resolve "blue and red" fallback).toList = ["#ef4444", "#3b82f6"] := by
  have hmet : metIn "blue and red" = ["#3b82f6", "#ef4444"] := by decide +kernel
  have hne : named "blue and red" ≠ [] := by decide +kernel
  refine ⟨?_, ?_, fun fallback => ?_⟩
  · exact (firstSeen_hexIn "blue and red").eq_nil_iff.1 (by decide +kernel)
  · rw [← hmet]
    exact firstSeen_metIn _
  · rw [toList_resolve fallback hne]
    decide +kernel

end Storyboard.Palette
