import Mathlib.Algebra.Order.Field.Basic
import Mathlib.Data.Rat.Cast.Order
import Mathlib.Tactic.FieldSimp
import Mathlib.Tactic.Linarith
import Mathlib.Tactic.Positivity
import Mathlib.Tactic.Ring
import Storyboard.Decimal.Rounding
/-!
# Rounded numerals

Rounding goes to the nearest integer, and to the even one of two that are equally near.  A count
of hundredths is written as a plain numeral: an optional minus, digits and at most two decimals,
with no zero and no point at its end and no minus before zero.
-/

namespace Storyboard.Decimal

/-! ## The nearest integer -/

/-- `k` is nearest to `q`, and the even one where two integers are equally near. -/
structure IsNearest (q : Rat) (k : Int) : Prop where
  near : |q - k| ≤ 1 / 2
  even : |q - k| = 1 / 2 → Even k

theorem IsNearest.of_lt {q : Rat} {k : Int} (h : |q - k| < 1 / 2) : IsNearest q k :=
  ⟨h.le, fun heq => absurd heq h.ne⟩

theorem IsNearest.neg {q : Rat} {k : Int} (h : IsNearest q k) : IsNearest (-q) (-k) := by
  have hsame : |-q - ((-k : Int) : Rat)| = |q - k| := by
    rw [← abs_neg (q - k), Int.cast_neg]
    ring_nf
  exact ⟨hsame ▸ h.near, fun heq => (h.even (hsame ▸ heq)).neg⟩

theorem isNearest_roundDiv (num : Nat) {den : Nat} (hden : 0 < den) :
    IsNearest ((num : Rat) / den) (roundDiv num den : Nat) := by
  have hpos : (0 : Rat) < den := by exact_mod_cast hden
  have hsplit : (num : Rat) / den = (num / den : Nat) + (num % den : Nat) / (den : Rat) := by
    have hnum : (num : Rat) = den * (num / den : Nat) + (num % den : Nat) := by
      exact_mod_cast (Nat.div_add_mod num den).symm
    rw [hnum]
    field_simp
  generalize hshare : ((num % den : Nat) : Rat) / den = share at hsplit
  have hnonneg : 0 ≤ share := by
    rw [← hshare]
    positivity
  have hlt_one : share < 1 := by
    rw [← hshare, div_lt_one hpos]
    exact_mod_cast Nat.mod_lt num hden
  have hbelow : |(num : Rat) / den - ((num / den : Nat) : Int)| = share := by
    rw [hsplit, Int.cast_natCast, add_sub_cancel_left, abs_of_nonneg hnonneg]
  have habove : |(num : Rat) / den - ((num / den + 1 : Nat) : Int)| = 1 - share := by
    rw [hsplit, abs_sub_comm, Int.cast_natCast, Nat.cast_add, add_sub_add_left_eq_sub, Nat.cast_one,
      abs_of_pos (sub_pos.2 hlt_one)]
  have hunder : share < 1 / 2 ↔ 2 * (num % den) < den := by
    rw [← hshare, div_lt_div_iff₀ hpos two_pos, one_mul, mul_comm]
    exact_mod_cast Iff.rfl
  have hover : 1 / 2 < share ↔ den < 2 * (num % den) := by
    rw [← hshare, div_lt_div_iff₀ two_pos hpos, one_mul, mul_comm]
    exact_mod_cast Iff.rfl
  have htie (hlow : ¬2 * (num % den) < den) (hhigh : ¬den < 2 * (num % den)) : share = 1 / 2 :=
    le_antisymm (not_lt.1 (mt hover.1 hhigh)) (not_lt.1 (mt hunder.1 hlow))
  unfold roundDiv
  split_ifs with hlow hhigh heven
  · exact .of_lt (hbelow.trans_lt (hunder.2 hlow))
  · have := hover.2 hhigh
    exact .of_lt (habove.trans_lt (by linarith))
  · refine ⟨(hbelow.trans (htie hlow hhigh)).le, fun _ => ?_⟩
    exact_mod_cast Nat.even_iff.2 heven
  · have hhalf := htie hlow hhigh
    refine ⟨(habove.trans (by linarith)).le, fun _ => ?_⟩
    exact_mod_cast Nat.even_add_one.2 (mt Nat.even_iff.1 heven)

theorem isNearest_nearest (q : Rat) : IsNearest q (nearest q) := by
  have habs := isNearest_roundDiv q.num.natAbs q.den_pos
  have hsize : ((q.num.natAbs : Nat) : Rat) / q.den = |q| := by
    rw [Nat.cast_natAbs, Rat.abs_def, Rat.divInt_eq_div]
    simp
  rw [hsize] at habs
  unfold nearest
  split_ifs with hneg
  · have := habs.neg
    rwa [abs_of_neg (Rat.num_neg.1 hneg), neg_neg] at this
  · rwa [abs_of_nonneg (Rat.num_nonneg.1 (not_lt.1 hneg))] at habs

/-! ## Numerals -/

/-- A decimal numeral; the point stands only before decimals. -/
structure Numeral where
  negative : Bool
  whole : List Char
  decimals : List Char

namespace Numeral

def text (n : Numeral) : List Char :=
  (if n.negative then ['-'] else []) ++ n.whole
    ++ (if n.decimals = [] then [] else '.' :: n.decimals)

/-- The number without its sign, counted in units of the last decimal. -/
def units (n : Numeral) : Nat := Nat.ofDigitChars 10 (n.whole ++ n.decimals) 0

def value (n : Numeral) : Rat :=
  (if n.negative then -1 else 1) * (n.units / 10 ^ n.decimals.length)

/-- At least one digit and at most two decimals, nothing idle at the end, no minus zero. -/
structure Plain (n : Numeral) : Prop where
  whole_ne : n.whole ≠ []
  digits : ∀ c ∈ n.whole ++ n.decimals, c.isDigit = true
  short : n.decimals.length ≤ 2
  trimmed : n.decimals.getLast? ≠ some '0'
  signed : n.negative = true → n.value ≠ 0

/-- A plain numeral for `q` rounded to two places. -/
structure Shows (n : Numeral) (q : Rat) : Prop extends n.Plain where
  rounded : ∃ k : Int, n.value = k / 100 ∧ IsNearest (q * 100) k

/-- The decimals that are left of a count of hundredths, most significant first. -/
inductive Decimals : Nat → List Char → Prop where
  | none : Decimals 0 []
  | tenths {t : Nat} (ht : t < 10) (hne : t ≠ 0) : Decimals (10 * t) [t.digitChar]
  | hundredths {t u : Nat} (ht : t < 10) (hu : u < 10) (hne : u ≠ 0) :
      Decimals (10 * t + u) [t.digitChar, u.digitChar]

end Numeral

open Numeral (Decimals)

/-- A count of hundredths is written with a sign, its whole part and its decimals. -/
theorem toList_hundredths (n : Int) : ∃ decimals, Decimals (n.natAbs % 100) decimals ∧
    (hundredths n).toList = Numeral.text ⟨decide (n < 0), digits (n.natAbs / 100), decimals⟩ := by
  have ht : n.natAbs / 10 % 10 < 10 := Nat.mod_lt _ (by decide)
  have hu : n.natAbs % 10 < 10 := Nat.mod_lt _ (by decide)
  have hsum : n.natAbs % 100 = 10 * (n.natAbs / 10 % 10) + n.natAbs % 10 := by omega
  simp only [hundredths, String.toList_ofList]
  by_cases hunits : n.natAbs % 10 = 0
  · by_cases htens : n.natAbs / 10 % 10 = 0
    · exact ⟨[], by simpa [hsum, hunits, htens] using Decimals.none, by
        simp [Numeral.text, hunits, htens]⟩
    · refine ⟨_, by simpa [hsum, hunits] using Decimals.tenths ht htens, ?_⟩
      simp [Numeral.text, hunits, htens, digits, Nat.toDigits_of_lt_base ht]
  · refine ⟨_, hsum ▸ Decimals.hundredths ht hu hunits, ?_⟩
    simp [Numeral.text, hunits, digits, Nat.toDigits_of_lt_base ht, Nat.toDigits_of_lt_base hu]

theorem digitChar_ne_zero {d : Nat} (hd : d < 10) (h : d ≠ 0) : d.digitChar ≠ '0' := by
  intro hzero
  have hcode := Nat.toNat_digitChar_of_lt_ten hd
  rw [hzero] at hcode
  exact h (Nat.add_left_cancel (n := 48) hcode).symm

namespace Numeral.Decimals

variable {r : Nat} {decimals : List Char}

theorem isDigit (h : Decimals r decimals) : ∀ c ∈ decimals, c.isDigit = true := by
  cases h <;> simp_all [Nat.isDigit_digitChar]

theorem length_le (h : Decimals r decimals) : decimals.length ≤ 2 := by
  cases h <;> simp

theorem getLast?_ne (h : Decimals r decimals) : decimals.getLast? ≠ some '0' := by
  cases h with
  | none => simp
  | tenths ht hne => simpa using digitChar_ne_zero ht hne
  | hundredths ht hu hne => simpa using digitChar_ne_zero hu hne

/-- The digits count the number in units of their last place. -/
theorem ofDigitChars (h : Decimals r decimals) (whole : Nat) :
    100 * Nat.ofDigitChars 10 (digits whole ++ decimals) 0
      = (100 * whole + r) * 10 ^ decimals.length := by
  have hdigit {d : Nat} (hd : d < 10) : d.digitChar.toNat - '0'.toNat = d := by
    rw [Nat.toNat_digitChar_of_lt_ten hd]
    exact Nat.add_sub_cancel_left ..
  rw [Nat.ofDigitChars_append, digits, Nat.ofDigitChars_ten_toDigits]
  cases h with
  | none => simp
  | tenths ht hne =>
      rw [Nat.ofDigitChars_cons, hdigit ht, Nat.ofDigitChars_nil, List.length_singleton]
      ring
  | hundredths ht hu hne =>
      rw [Nat.ofDigitChars_cons, Nat.ofDigitChars_cons, hdigit ht, hdigit hu, Nat.ofDigitChars_nil]
      simp only [List.length_cons, List.length_nil]
      ring

end Numeral.Decimals

theorem value_hundredths {n : Int} {decimals : List Char}
    (h : Decimals (n.natAbs % 100) decimals) :
    Numeral.value ⟨decide (n < 0), digits (n.natAbs / 100), decimals⟩ = n / 100 := by
  have hcount := h.ofDigitChars (n.natAbs / 100)
  rw [Nat.div_add_mod] at hcount
  have hsize : ((Nat.ofDigitChars 10 (digits (n.natAbs / 100) ++ decimals) 0 : Nat) : Rat)
      / 10 ^ decimals.length = (n.natAbs : Rat) / 100 := by
    rw [div_eq_div_iff (by positivity) (by norm_num), mul_comm]
    exact_mod_cast hcount
  rw [Numeral.value, Numeral.units, hsize, Nat.cast_natAbs]
  by_cases hneg : n < 0
  · simp [hneg, abs_of_neg hneg, neg_div]
  · simp [hneg, abs_of_nonneg (not_lt.1 hneg)]

theorem plain_hundredths {n : Int} {decimals : List Char}
    (h : Decimals (n.natAbs % 100) decimals) :
    Numeral.Plain ⟨decide (n < 0), digits (n.natAbs / 100), decimals⟩ where
  whole_ne := Nat.toDigits_ne_nil
  digits c hc := by
    rcases List.mem_append.1 hc with hc | hc
    · exact Nat.isDigit_of_mem_toDigits (by decide) (by decide) hc
    · exact h.isDigit c hc
  short := h.length_le
  trimmed := h.getLast?_ne
  signed hneg := by
    rw [value_hundredths h]
    have : n ≠ 0 := (of_decide_eq_true hneg).ne
    positivity

/-- A number rounded to two places is written as a plain numeral of the rounded value. -/
theorem shows_hundredths (q : Rat) :
    ∃ n : Numeral, (hundredths (atPlaces 2 q)).toList = n.text ∧ n.Shows q := by
  obtain ⟨decimals, hdecimals, htext⟩ := toList_hundredths (atPlaces 2 q)
  refine ⟨_, htext, plain_hundredths hdecimals, _, value_hundredths hdecimals, ?_⟩
  simpa [atPlaces] using isNearest_nearest (q * (Nat.pow 10 2 : Nat))

end Storyboard.Decimal
