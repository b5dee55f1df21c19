import Storyboard.Curve
import Storyboard.Palette
import Storyboard.Prompt.Features
import Storyboard.Proofs.Placeholder.Moves
import Storyboard.Proofs.Prompt.FirstSeen
import Storyboard.Proofs.Prompt.Quotes
/-!
# Texts that hold no placeholder

The colours of a palette and the data of a path never hold one, whatever the prompt.  The words
that an element is to show come from the prompt, and hold one only when the prompt does.
-/

namespace Storyboard

open Placeholder (textRuns textRuns_of_not_mem textRuns_of_not_mem_brace textRuns_of_infix)

/-! ## Path data -/

/-- A text without the brace that placeholders open with. -/
def Braceless (s : String) : Prop := '\x7b' ∉ s.toList

namespace Braceless

theorem append {s t : String} (hs : Braceless s) (ht : Braceless t) : Braceless (s ++ t) := by
  unfold Braceless at *
  simp [hs, ht]

theorem intercalate {sep : String} {parts : List String} (hsep : Braceless sep)
    (h : ∀ s ∈ parts, Braceless s) : Braceless (sep.intercalate parts) := by
  induction parts with
  | nil => simp [Braceless]
  | cons s rest ih =>
      obtain ⟨hs, hrest⟩ := List.forall_mem_cons.1 h
      cases rest with
      | nil =>
          rw [String.intercalate_singleton]
          exact hs
      | cons t rest =>
          rw [String.intercalate_cons_cons]
          exact (hs.append hsep).append (ih hrest)

end Braceless

theorem not_mem_brace_digits (n : Nat) : '\x7b' ∉ Decimal.digits n := fun h => by
  have hdigit := Placeholder.isDigit_of_mem_digits h
  rw [Placeholder.isDigit_brace.1] at hdigit
  simp at hdigit

theorem braceless_toString (n : Nat) : Braceless (toString n) := by
  have hdigits : (toString n).toList = Decimal.digits n := by simp [Decimal.digits]
  rw [Braceless, hdigits]
  exact not_mem_brace_digits n

theorem Decimal.braceless_hundredths (n : Int) : Braceless (hundredths n) := by
  have hsign : '\x7b' ∉ (if n < 0 then ['-'] else []) := by split <;> simp
  unfold Braceless hundredths
  simp only [String.toList_ofList, List.mem_append, not_or]
  refine ⟨⟨hsign, not_mem_brace_digits _⟩, ?_⟩
  split
  · simp [not_mem_brace_digits]
  · split <;> simp [not_mem_brace_digits]

namespace Curve

variable {α : Type} [Scalar α]

theorem braceless_coordinate (x : α) : Braceless (coordinate x) := by
  unfold coordinate
  split
  · exact Decimal.braceless_hundredths _
  · -- A number without an exact value has no numeral, only a name.
    rename_i hnone
    have hlimit : Scalar.isFinite x = false := by simp [Scalar.isFinite, hnone]
    rw [Scalar.text, hlimit]
    simp only [Bool.false_eq_true, if_false]
    split
    · simp [Braceless]
    · split <;> simp [Braceless]

theorem braceless_pointText (p : Point α) : Braceless (pointText p) :=
  ((braceless_coordinate _).append (by simp [Braceless])).append (braceless_coordinate _)

theorem braceless_text (c : Command α) : Braceless c.text := by
  have hspace : Braceless " " := by simp [Braceless]
  cases c with
  | move p => exact Braceless.append (by simp [Braceless]) (braceless_pointText p)
  | line p => exact Braceless.append (by simp [Braceless]) (braceless_pointText p)
  | smooth p => exact Braceless.append (by simp [Braceless]) (braceless_pointText p)
  | close => simp [Braceless, Command.text]
  | quadratic c p =>
      have hfirst : Braceless ("Q" ++ pointText c) :=
        Braceless.append (by simp [Braceless]) (braceless_pointText c)
      exact (hfirst.append hspace).append (braceless_pointText p)
  | cubic a b p =>
      have hfirst : Braceless ("C" ++ pointText a) :=
        Braceless.append (by simp [Braceless]) (braceless_pointText a)
      have hsecond := (hfirst.append hspace).append (braceless_pointText b)
      exact (hsecond.append hspace).append (braceless_pointText p)

theorem textRuns_render (commands : List (Command α)) : textRuns (render commands) = [] := by
  apply textRuns_of_not_mem_brace
  apply Braceless.intercalate (by simp [Braceless])
  intro s hs
  obtain ⟨c, -, rfl⟩ := List.mem_map.1 hs
  exact braceless_text c

end Curve

/-! ## Letter case -/

namespace Text

/-- Only capital letters are changed by a small form, and only to small letters. -/
theorem eq_of_toLower_eq {c d : Char} (hd : ¬ (97 ≤ d.toNat ∧ d.toNat ≤ 122))
    (h : c.toLower = d) : c = d := by
  unfold Char.toLower at h
  split at h
  · rename_i hupper
    have hlow := UInt32.le_iff_toNat_le.1 hupper.1
    have hhigh := UInt32.le_iff_toNat_le.1 hupper.2
    have hvalue := congrArg (fun c => c.val.toNat) h
    simp at hvalue hlow hhigh
    omega
  · exact h

theorem toNat_of_ofNat_eq {n : Nat} {c : Char} (hc : 0 < c.toNat) (h : Char.ofNat n = c) :
    n = c.toNat := by
  by_cases hn : n.isValidChar
  · rw [← h, Char.ofNat, dif_pos hn]
    rfl
  · rw [← h, Char.ofNat, dif_neg hn] at hc
    exact absurd hc (by decide)

theorem lowerChar_ne_capitalN (c : Char) : lowerChar c ≠ 'N' := by
  have hruns : ∀ run ∈ lowerRuns.toList, 78 < run.2.2.2 := by decide +kernel
  intro h
  unfold lowerChar at h
  split at h
  · rename_i hascii
    have hcapital := eq_of_toLower_eq (by decide) h
    rw [hcapital] at h
    revert h
    decide
  · rename_i hwide
    have hnot : c ≠ 'N' := by
      rintro rfl
      exact hwide (by decide)
    split at h
    · rename_i first last stride image hrun
      have himage := hruns _ (Array.mem_toList_iff.2 (Array.mem_of_getElem? hrun))
      split at h
      · have hvalue := toNat_of_ofNat_eq (by decide) h
        have hcapital : 'N'.toNat = 78 := by decide
        dsimp only at himage
        omega
      · exact hnot h
    · exact hnot h

theorem capitalN_not_mem_lowerFrom (before cs : List Char) : 'N' ∉ lowerFrom before cs := by
  induction cs generalizing before with
  | nil => simp [lowerFrom]
  | cons c cs ih =>
      unfold lowerFrom
      rw [List.mem_append, not_or]
      refine ⟨?_, ih _⟩
      split
      · split <;> simp
      · split
        · simp
        · simpa using (lowerChar_ne_capitalN c).symm

theorem trimBy_isInfix (p : Char → Bool) (cs : List Char) : trimBy p cs <:+: cs := by
  have hfront : cs.dropWhile p <:+ cs := List.dropWhile_suffix p
  have hback : (cs.dropWhile p).reverse.dropWhile p <:+ (cs.dropWhile p).reverse :=
    List.dropWhile_suffix p
  have hprefix : trimBy p cs <+: cs.dropWhile p := by
    have := List.reverse_prefix.2 hback
    rwa [List.reverse_reverse] at this
  exact hprefix.isInfix.trans hfront.isInfix

end Text

/-! ## Colours -/

namespace Colour

theorem not_mem_brace_of_codeAt? {cs digits : List Char} (h : codeAt? cs = some digits) :
    '\x7b' ∉ digits := by
  unfold codeAt? at h
  split at h
  · rename_i rest
    dsimp only at h
    split at h
    · rw [← Option.some.inj h]
      intro hmem
      have hhex : isHexDigit '\x7b' = true := List.all_eq_true.1 List.all_takeWhile _ hmem
      revert hhex
      decide
    · simp at h
  · simp at h

theorem braceless_of_mem_codes {cs : List Char} {code : String} (h : code ∈ codes cs) :
    Braceless code := by
  induction cs with
  | nil => simp [codes] at h
  | cons c cs ih =>
      unfold codes at h
      split at h
      · rename_i digits hat
        rcases List.mem_cons.1 h with rfl | h
        · simp [Braceless, not_mem_brace_of_codeAt? hat]
        · exact ih h
      · exact ih h

theorem braceless_lowerCode {code : String} (h : Braceless code) : Braceless (lowerCode code) := by
  unfold Braceless lowerCode
  rw [String.toList_ofList]
  intro hmem
  obtain ⟨c, hc, hlower⟩ := List.mem_map.1 hmem
  refine absurd ?_ h
  rwa [← Text.eq_of_toLower_eq (by decide) hlower]

theorem braceless_of_mem_named {colour : String × String} (h : colour ∈ named) :
    Braceless colour.2 := by
  have hall : ∀ colour ∈ named, '\x7b' ∉ colour.2.toList := by decide
  exact hall colour h

theorem braceless_of_mem_hexIn {text c : String} (h : c ∈ hexIn text) : Braceless c := by
  obtain ⟨code, hcode, rfl⟩ := List.mem_map.1 (mem_distinct_iff.1 h)
  exact braceless_lowerCode (braceless_of_mem_codes hcode)

theorem braceless_of_mem_namedIn {text c : String} (h : c ∈ namedIn text) : Braceless c := by
  obtain ⟨colour, hcolour, rfl⟩ := List.mem_map.1 (mem_distinct_iff.1 h)
  exact braceless_of_mem_named (List.mem_filter.1 hcolour).1

theorem braceless_of_of? {text c : String} (h : of? text = some c) : Braceless c := by
  unfold of? at h
  split at h
  · rename_i code rest hcodes
    have hmem : code ∈ codes text.toList := by
      rw [hcodes]
      exact List.mem_cons_self
    rw [← Option.some.inj h]
    exact braceless_of_mem_codes hmem
  · exact braceless_of_mem_namedIn (List.mem_of_head? h)

end Colour

namespace Palette

theorem toList_of_ofList? {cs : List String} {p : Palette} (h : ofList? cs = some p) :
    p.toList = cs := by
  cases cs with
  | nil => simp [ofList?] at h
  | cons c cs =>
      rw [← Option.some.inj h]
      rfl

theorem braceless_of_mem_ofArchetype {a : Archetype} {c : String}
    (h : c ∈ (ofArchetype a).toList) : Braceless c := by
  have hall : ∀ c ∈ (ofArchetype a).toList, '\x7b' ∉ c.toList := by cases a <;> decide
  exact hall c h

/-- Every colour that a prompt or an archetype gives a palette is a code. -/
theorem braceless_of_mem_resolve {text c : String} {a : Archetype}
    (h : c ∈ (resolve text (ofArchetype a).toList).toList) : Braceless c := by
  unfold resolve at h
  cases hprompt : ofList? ((named text).take limit) with
  | some p =>
      rw [hprompt, Option.some_or, Option.getD_some, toList_of_ofList? hprompt] at h
      have hnamed := Colour.mem_distinct_iff.1 (List.mem_of_mem_take h)
      rcases List.mem_append.1 hnamed with hhex | hname
      · exact Colour.braceless_of_mem_hexIn hhex
      · exact Colour.braceless_of_mem_namedIn hname
  | none =>
      rw [hprompt, Option.none_or] at h
      cases hfallback : ofList? ((ofArchetype a).toList.take limit) with
      | some p =>
          rw [hfallback, Option.getD_some, toList_of_ofList? hfallback] at h
          exact braceless_of_mem_ofArchetype (List.mem_of_mem_take h)
      | none =>
          rw [hfallback, Option.getD_none] at h
          exact braceless_of_mem_ofArchetype (a := .basic) h

end Palette

/-! ## Words that are shown -/

namespace Quotation

open Text (search after? trimBy isBlank trimBy_isInfix)

theorem infix_of_quotedAt {inside : Bool} {cs inner : List Char}
    (h : quotedAt inside cs = some inner) : inner <:+: cs := by
  cases quotedAt_eq_some_iff.1 h with
  | @double _ after => exact ⟨['"'], '"' :: after, by simp⟩
  | @single _ after => exact ⟨['\''], '\'' :: after, by simp⟩

theorem infix_of_captionAt {inside : Bool} {cs line : List Char}
    (h : captionAt inside cs = some line) : line <:+: cs := by
  unfold captionAt at h
  split at h
  · simp at h
  · obtain ⟨word, -, h⟩ := List.exists_of_findSome?_eq_some h
    obtain ⟨rest, hrest, h⟩ := Option.bind_eq_some_iff.1 h
    have hsuffix : rest <:+ cs := ⟨word.toList, (Placeholder.after?_eq_some_iff.1 hrest).symm⟩
    have hline : (rest.dropWhile isBlank).takeWhile (· ≠ '\n') <:+: cs :=
      (List.takeWhile_prefix _).isInfix.trans
        ((List.dropWhile_suffix _).isInfix.trans hsuffix.isInfix)
    split at h
    · split at h
      · split at h
        · simp at h
        · rw [← Option.some.inj h]
          exact hline
      · simp at h
    · simp at h

theorem isPrefixOf_beforeClause (inside : Bool) (cs : List Char) :
    beforeClause inside cs <+: cs := by
  induction cs generalizing inside with
  | nil => exact List.prefix_refl _
  | cons c cs ih =>
      unfold beforeClause
      dsimp only
      split
      · exact List.nil_prefix
      · exact (List.prefix_cons_inj c).2 (ih _)

/-- The words to be shown are a part of the prompt, or of its form in small letters. -/
theorem infix_of_content? {raw small : List Char} {s : String}
    (h : content? raw small = some s) : s.toList <:+: raw ∨ s.toList <:+: small := by
  unfold content? at h
  dsimp only at h
  split at h
  · left
    cases hquoted : search quotedAt false raw with
    | none =>
        rename_i hne
        simp [hquoted] at hne
    | some inner =>
        obtain ⟨b, t, ht, hrule⟩ := Text.exists_of_search hquoted
        rw [hquoted] at h
        rw [← Option.some.inj h, String.toList_ofList]
        exact (trimBy_isInfix isBlank inner).trans
          ((infix_of_quotedAt hrule).trans ht.isInfix)
  · right
    split at h
    · simp at h
    · rename_i line hcaption
      obtain ⟨b, t, ht, hrule⟩ := Text.exists_of_search hcaption
      split at h
      · simp at h
      · rw [← Option.some.inj h, String.toList_ofList]
        exact (trimBy_isInfix isBlank _).trans
          ((isPrefixOf_beforeClause false line).isInfix.trans
            ((infix_of_captionAt hrule).trans ht.isInfix))

end Quotation

/-- The colour that a prompt asks for holds no placeholder. -/
theorem Features.textRuns_colour {α : Type} [Scalar α] {raw c : String} {f : Features α}
    (hf : Features.ofText raw = .ok f) (hc : f.colour = some c) : textRuns c = [] := by
  unfold ofText at hf
  obtain ⟨count, -, rfl⟩ := map_eq_ok_iff.1 hf
  exact textRuns_of_not_mem_brace (Colour.braceless_of_of? hc)

/-- A prompt without placeholders asks for words without any. -/
theorem Features.textRuns_content {α : Type} [Scalar α] {raw s : String} {f : Features α}
    (hraw : textRuns raw = []) (hf : Features.ofText raw = .ok f) (hs : f.content = some s) :
    textRuns s = [] := by
  unfold ofText at hf
  obtain ⟨count, -, rfl⟩ := map_eq_ok_iff.1 hf
  dsimp only at hs
  rcases Quotation.infix_of_content? hs with hpart | hpart
  · exact textRuns_of_infix hraw hpart
  · -- Small letters do not spell the name of a placeholder.
    have hopening : 'N' ∈ Placeholder.opening := by decide
    refine textRuns_of_not_mem hopening fun hmem => ?_
    have hsmall := hpart.subset hmem
    rw [Features.normalize, Text.trim, String.toList_ofList] at hsmall
    have hlower := (Text.trimBy_isInfix _ _).subset hsmall
    rw [Text.lower, String.toList_ofList] at hlower
    exact Text.capitalN_not_mem_lowerFrom _ _ hlower

end Storyboard
