import Mathlib.Tactic.Ring
import Storyboard.Proofs.Binary.Whole
import Storyboard.Proofs.Prompt.Digits
/-!
# Percentages in a prompt

A percentage is read from up to three digits before a percent sign, wherever the row of digits
starts.  So the last three digits of a longer row are read, and the share is the one that the whole
row stands for only when these three are not below a hundred.
-/

namespace Storyboard

namespace Text

variable {cs ds p q : List Char}

/-! ## Digits through the normal form -/

theorem exists_lowerFrom_append (before rest : List Char) (h : ∀ c ∈ p, isDigit c = false) :
    ∃ image, lowerFrom before (p ++ rest) = image ++ lowerFrom (p.reverse ++ before) rest ∧
      ∀ d ∈ image, isDigit d = false := by
  induction p generalizing before with
  | nil => exact ⟨[], rfl, List.forall_mem_nil _⟩
  | cons c p ih =>
      obtain ⟨hc, hp⟩ := List.forall_mem_cons.1 h
      obtain ⟨image, himage, hnone⟩ := ih (c :: before) hp
      obtain ⟨first, hfirst, hcases⟩ := exists_image before c (p ++ rest)
      refine ⟨first ++ image, by simp [hfirst, himage], ?_⟩
      rw [List.forall_mem_append]
      refine ⟨?_, hnone⟩
      rcases hcases with rfl | ⟨-, -, hfirst⟩
      · exact List.forall_mem_singleton.2 hc
      · exact hfirst

theorem lowerFrom_digits_append (before rest : List Char) (h : ∀ d ∈ ds, isDigit d = true) :
    lowerFrom before (ds ++ rest) = ds ++ lowerFrom (ds.reverse ++ before) rest := by
  induction ds generalizing before with
  | nil => rfl
  | cons d ds ih =>
      obtain ⟨hd, hds⟩ := List.forall_mem_cons.1 h
      obtain ⟨image, himage, hcases⟩ := exists_image before d (ds ++ rest)
      rcases hcases with rfl | ⟨hnone, -⟩
      · simp [himage, ih (d :: before) hds]
      · rw [hd] at hnone
        cases hnone

theorem dropWhile_append_cons {drop : Char → Bool} {c : Char} (front rest : List Char)
    (hc : drop c = false) :
    (front ++ c :: rest).dropWhile drop = front.dropWhile drop ++ c :: rest := by
  induction front with
  | nil => simp [hc]
  | cons d front ih => by_cases hd : drop d = true <;> simp [hd, ih]

/-- What stands between two characters that stay is not trimmed. -/
theorem trimBy_append {drop : Char → Bool} {c d : Char} (front mid back : List Char)
    (hc : drop c = false) (hd : drop d = false) :
    trimBy drop (front ++ (c :: mid) ++ d :: back) =
      front.dropWhile drop ++ (c :: mid) ++ d :: (back.reverse.dropWhile drop).reverse := by
  unfold trimBy
  rw [List.append_assoc, List.cons_append, dropWhile_append_cons front _ hc]
  have hreverse : (front.dropWhile drop ++ c :: (mid ++ d :: back)).reverse =
      back.reverse ++ d :: (front.dropWhile drop ++ c :: mid).reverse := by simp
  rw [hreverse, dropWhile_append_cons _ _ hd]
  simp

/-- A row of digits before a percent sign stays in the normal form of a prompt. -/
theorem exists_normalize {raw : String} (hraw : raw.toList = p ++ ds ++ '%' :: q)
    (hp : ∀ c ∈ p, isDigit c = false) (hne : ds ≠ []) (hds : ∀ d ∈ ds, isDigit d = true) :
    ∃ front back, (Features.normalize raw).toList = front ++ ds ++ '%' :: back ∧
      ∀ c ∈ front, isDigit c = false := by
  obtain ⟨image, himage, hnone⟩ := exists_lowerFrom_append [] (ds ++ '%' :: q) hp
  have hsign : ∀ before, lowerFrom before ('%' :: q) = '%' :: lowerFrom ('%' :: before) q :=
    fun before => rfl
  obtain ⟨d, mid, rfl⟩ := List.exists_cons_of_ne_nil hne
  rw [Features.normalize, trim, String.toList_ofList, lower, String.toList_ofList, hraw,
    List.append_assoc, himage, lowerFrom_digits_append _ _ hds, hsign, ← List.append_assoc,
    trimBy_append _ _ _ (isBlank_of_isDigit (List.forall_mem_cons.1 hds).1) (by decide)]
  exact ⟨_, _, rfl, fun c hc => hnone c ((List.dropWhile_sublist _).subset hc)⟩

end Text

namespace Measure

open Text (isDigit digitValue? search_eq_some_iff)

variable {ds es p q : List Char}

/-! ## The number before the sign -/

theorem digitValue?_lt {c : Char} {n : Nat} (h : digitValue? c = some n) : n < 10 := by
  unfold digitValue? at h
  split at h
  · split at h
    · rename_i hdigit
      have hrange : 48 ≤ c.toNat ∧ c.toNat ≤ 57 := Char.isDigit_iff_toNat.1 hdigit
      obtain rfl := Option.some.inj h
      omega
    · cases h
  · dsimp only at h
    split at h
    · obtain rfl := Option.some.inj h
      omega
    · cases h

theorem foldl_eq_add_valueOf (ns : List Nat) (init : Nat) :
    ns.foldl (fun n d => 10 * n + d) init = init * 10 ^ ns.length + Text.valueOf ns := by
  induction ns generalizing init with
  | nil => simp [Text.valueOf]
  | cons n ns ih =>
      rw [Text.valueOf, List.foldl_cons, List.foldl_cons, ih, ih (10 * 0 + n), List.length_cons,
        pow_succ]
      ring

theorem length_filterMap_digitValue? (h : ∀ d ∈ ds, isDigit d = true) :
    (ds.filterMap digitValue?).length = ds.length := by
  induction ds with
  | nil => rfl
  | cons d ds ih =>
      obtain ⟨hd, hds⟩ := List.forall_mem_cons.1 h
      obtain ⟨n, hn⟩ := Option.isSome_iff_exists.1 hd
      simp [hn, ih hds]

theorem digitsValue_append (ds : List Char) (h : ∀ d ∈ es, isDigit d = true) :
    digitsValue (ds ++ es) = digitsValue ds * 10 ^ es.length + digitsValue es := by
  rw [digitsValue, Text.valueOf, List.filterMap_append, List.foldl_append, foldl_eq_add_valueOf,
    length_filterMap_digitValue? h]
  rfl

theorem digitsValue_lt (h : ∀ d ∈ ds, isDigit d = true) : digitsValue ds < 10 ^ ds.length := by
  induction ds with
  | nil => decide
  | cons d ds ih =>
      obtain ⟨hd, hds⟩ := List.forall_mem_cons.1 h
      obtain ⟨n, hn⟩ := Option.isSome_iff_exists.1 hd
      have hsingle : digitsValue [d] = n := by simp [digitsValue, Text.valueOf, hn]
      calc digitsValue (d :: ds) = n * 10 ^ ds.length + digitsValue ds := by
            rw [← List.singleton_append, digitsValue_append [d] hds, hsingle]
        _ < n * 10 ^ ds.length + 10 ^ ds.length := Nat.add_lt_add_left (ih hds) _
        _ = (n + 1) * 10 ^ ds.length := by ring
        _ ≤ 10 * 10 ^ ds.length := Nat.mul_le_mul_right _ (digitValue?_lt hn)
        _ = 10 ^ (d :: ds).length := by rw [List.length_cons, pow_succ, Nat.mul_comm]

/-- The last digits of a row stand for the rest that the whole leaves. -/
theorem digitsValue_drop (h : ∀ d ∈ ds, isDigit d = true) :
    digitsValue (ds.drop (ds.length - 3)) = digitsValue ds % 1000 := by
  have hlast : ∀ d ∈ ds.drop (ds.length - 3), isDigit d = true :=
    fun d hd => h d (List.mem_of_mem_drop hd)
  have hbound := digitsValue_lt hlast
  rw [List.length_drop] at hbound
  by_cases hlong : 3 ≤ ds.length
  · have hsplit := digitsValue_append (ds.take (ds.length - 3)) hlast
    rw [List.take_append_drop, List.length_drop, Nat.sub_sub_self hlong] at hsplit
    rw [Nat.sub_sub_self hlong] at hbound
    omega
  · have hall : ds.drop (ds.length - 3) = ds := by
      rw [Nat.sub_eq_zero_of_le (by omega), List.drop_zero]
    rw [hall] at hbound ⊢
    have hpow : 10 ^ (ds.length - (ds.length - 3)) ≤ 10 ^ 3 :=
      Nat.pow_le_pow_right (by decide) (by omega)
    omega

theorem percentAt_digits_append (h : ∀ d ∈ ds, isDigit d = true) :
    percentAt (ds ++ '%' :: q) =
      if 1 ≤ ds.length ∧ ds.length ≤ 3 then some (digitsValue ds) else none := by
  have hsign : isDigit '%' = false ∧ Text.isBlank '%' = false := by decide
  unfold percentAt
  rw [List.takeWhile_append_of_pos h, List.dropWhile_append_of_pos h]
  simp [hsign]

theorem percentAt_cons_of_not_isDigit {c : Char} {cs : List Char} (h : isDigit c = false) :
    percentAt (c :: cs) = none := by
  unfold percentAt
  simp only [List.takeWhile_cons, h, Bool.false_eq_true, if_false, List.length_nil]
  split <;> rfl

/-- The last three digits are read. -/
theorem percent?_eq (hp : ∀ c ∈ p, isDigit c = false) (hds : ∀ d ∈ ds, isDigit d = true)
    (hne : ds ≠ []) : percent? (p ++ ds ++ '%' :: q) = some (digitsValue ds % 1000) := by
  have hpos := List.length_pos_iff.2 hne
  refine search_eq_some_iff.2 ⟨p ++ ds.take (ds.length - 3), ds.drop (ds.length - 3) ++ '%' :: q,
    ?_, ?_, ?_⟩
  · simp only [List.append_assoc]
    rw [← List.append_assoc (ds.take _), List.take_append_drop]
  · rw [percentAt_digits_append fun d hd => hds d (List.mem_of_mem_drop hd), if_pos,
      digitsValue_drop hds]
    rw [List.length_drop]
    omega
  · intro front back hsplit hlt
    have hback : back = (p ++ (ds ++ '%' :: q)).drop front.length := by
      rw [← List.append_assoc, hsplit, List.drop_left]
    rcases Nat.lt_or_ge front.length p.length with hfront | hfront
    · rw [hback, List.drop_append_of_le_length (by omega), List.drop_eq_getElem_cons hfront]
      exact percentAt_cons_of_not_isDigit (hp _ (List.getElem_mem hfront))
    · -- What is left of the row has more than three digits.
      simp only [List.length_append, List.length_take] at hlt
      rw [hback, List.drop_append, List.drop_of_length_le hfront, List.nil_append,
        List.drop_append_of_le_length (by omega),
        percentAt_digits_append fun d hd => hds d (List.mem_of_mem_drop hd), if_neg]
      rw [List.length_drop]
      omega

/-! ## The share that it stands for -/

theorem clamp_ofNat (n : Nat) :
    Scalar.clamp (Scalar.ofNat n : Float) 0.0 100.0 = Scalar.ofNat (min n 100) := by
  by_cases hn : n < 128
  · have hall : ∀ n < 128, Scalar.clamp (Scalar.ofNat n : Float) 0.0 100.0 =
        Scalar.ofNat (min n 100) := by decide +kernel
    exact hall n hn
  · have habove : (100.0 : Float) < Scalar.ofNat n :=
      Binary.lt_of_ample (e := -46) (m := 100 * 2 ^ 46) rfl (by decide)
        (Binary.ample_natural (b := 7) (by omega))
    rw [Nat.min_eq_right (by omega), Scalar.clamp, Scalar.min,
      if_neg (Binary.not_lt_of_lt habove)]
    decide +kernel

/-- Nothing less than a hundred percent is the whole. -/
theorem share_ne_one : ∀ n < 100,
    (Scalar.ofNat n : Float) / 100.0 ≠ Scalar.ofNat 100 / 100.0 := by decide +kernel

/-- A percentage stands for its share of a hundred, up to the whole, exactly when it has no more
than three digits or the last three are not below a hundred. -/
theorem opacity?_percent_iff {raw : String} {n : Nat}
    (hraw : raw.toList = p ++ Decimal.digits n ++ '%' :: q) (hp : ∀ c ∈ p, isDigit c = false)
    (hplain : holdsWord "transparent" (Features.normalize raw).toList = false) :
    opacity? (Features.normalize raw).toList =
        some ((Scalar.ofNat (min (n % 1000) 100) : Float) / 100.0) ∧
      (opacity? (Features.normalize raw).toList =
          some ((Scalar.ofNat (min n 100) : Float) / 100.0) ↔
        ¬ (1000 ≤ n ∧ n % 1000 < 100)) := by
  have hds : ∀ d ∈ Decimal.digits n, isDigit d = true := fun d hd =>
    Placeholder.isDigit_of_mem_digits hd
  have hne : Decimal.digits n ≠ [] := Nat.toDigits_ne_nil
  obtain ⟨front, back, hnormal, hfront⟩ := Text.exists_normalize hraw hp hne hds
  have hvalue : digitsValue (Decimal.digits n) = n := Placeholder.valueOf_digits n
  have hopacity : opacity? (Features.normalize raw).toList =
      some ((Scalar.ofNat (min (n % 1000) 100) : Float) / 100.0) := by
    rw [opacity?, hplain, hnormal, percent?_eq hfront hds hne, hvalue]
    simp only [Bool.false_eq_true, if_false, clamp_ofNat]
  refine ⟨hopacity, ?_⟩
  rw [hopacity, Option.some.injEq]
  by_cases hlow : 1000 ≤ n ∧ n % 1000 < 100
  · refine iff_of_false ?_ (not_not_intro hlow)
    rw [Nat.min_eq_left (by omega), Nat.min_eq_right (by omega)]
    exact share_ne_one _ hlow.2
  · refine iff_of_true ?_ hlow
    have hsame : min (n % 1000) 100 = min n 100 := by omega
    rw [hsame]

theorem opacity?_percent_iff_ample : "Make it 2500% opaque".toList =
      "Make it ".toList ++ Decimal.digits 2500 ++ '%' :: " opaque".toList ∧
    (∀ c ∈ "Make it ".toList, isDigit c = false) ∧
    holdsWord "transparent" (Features.normalize "Make it 2500% opaque").toList = false ∧
    opacity? (Features.normalize "Make it 2500% opaque").toList =
      some ((Scalar.ofNat (min 2500 100) : Float) / 100.0) := by
  have hraw : "Make it 2500% opaque".toList =
      "Make it ".toList ++ Decimal.digits 2500 ++ '%' :: " opaque".toList := by decide +kernel
  have hp : ∀ c ∈ "Make it ".toList, isDigit c = false :=
    Text.no_digits_of_any (by decide +kernel)
  have hplain : holdsWord "transparent"
      (Features.normalize "Make it 2500% opaque").toList = false := by decide +kernel
  exact ⟨hraw, hp, hplain, (opacity?_percent_iff hraw hp hplain).2.2 (by decide)⟩

/-- A thousand percent is read as nothing. -/
theorem opacity?_thousand : "opacity 1000%".toList =
      "opacity ".toList ++ Decimal.digits 1000 ++ '%' :: [] ∧
    (∀ c ∈ "opacity ".toList, isDigit c = false) ∧
    holdsWord "transparent" (Features.normalize "opacity 1000%").toList = false ∧
    opacity? (Features.normalize "opacity 1000%").toList = some (0.0 : Float) ∧
    (0.0 : Float) ≠ Scalar.ofNat (min 1000 100) / 100.0 := by
  exact ⟨by decide +kernel, Text.no_digits_of_any (by decide +kernel), by decide +kernel,
    by decide +kernel, by decide +kernel⟩

end Measure

end Storyboard
