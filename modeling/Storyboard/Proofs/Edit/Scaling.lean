import Storyboard.Proofs.Binary.Product
import Storyboard.Proofs.Edit.Reach
/-!
# Edits of the scale

A prompt makes an element bigger or smaller by a fifth, and then moves its scale into the range from
a tenth to ten.  An element whose scale lies outside of that range may so come to be smaller when it
is to be bigger, or the other way round.  Once an edit has set the scale this happens no more.
-/

namespace Storyboard

/-- The scale of an element; one without any is drawn as it is. -/
def Element.size (e : Element Float) : Float := e.scale.getD 1.0

/-- A scale that elements may have: finite and not below a hundredth. -/
def Scalable (s : Float) : Prop := Scalar.isFinite s = true ∧ (0.01 : Float) ≤ s

/-- An element after some actions: its scale is the one that they set, if they set any. -/
inductive Leaves {α : Type} (e : Element α) (as : List (Action α)) (e' : Element α) : Prop
  | rescaled {s : α} : Carries as e.id "scale" (.real s) → e'.scale = some s → Leaves e as e'
  | kept : (∀ v, ¬ Carries as e.id "scale" v) → e'.scale = e.scale → Leaves e as e'

namespace Edit

/-! ## One edit -/

/-- The edit of a plan turns one element into another. -/
def Turns {α : Type} [Scalar α] (p : Plan α) (e e' : Element α) : Prop :=
  ∃ as, Reaches p e as ∧ Leaves e as e'

/-- An element does not get smaller by an edit with a word for bigger, nor larger by one with a
word for smaller only. -/
structure Obeys (p : Plan Float) (e e' : Element Float) : Prop where
  bigger : p.mentions .bigger = true → ¬ e'.size < e.size
  smaller : p.mentions .bigger = false → p.mentions .smaller = true → ¬ e.size < e'.size

/-- The scale lies so far outside of the range that an edit reverses the word for it. -/
def Reverses (p : Plan Float) (s : Float) : Prop :=
  p.mentions .bigger = true ∧ (10.0 : Float) < s ∨
    p.mentions .bigger = false ∧ p.mentions .smaller = true ∧ s < (0.1 : Float)

/-- The prompt has a word for bigger or smaller. -/
def rescales (p : Plan Float) : Bool := p.mentions .bigger || p.mentions .smaller

section

variable {α : Type} [Scalar α] {p : Plan α} {e e' : Element α} {as : List (Action α)}

theorem carries_scale_iff (h : Reaches p e as) {v : Value α} :
    Carries as e.id "scale" v ↔ (rescaled? p e).map .real = some v := by
  rw [carries_iff h (by simp), get?_changes, get?_measures]
  simp

theorem scale_of_turns (h : Turns p e e') : e'.scale = (rescaled? p e).or e.scale := by
  obtain ⟨as, hreaches, hleaves⟩ := h
  cases hleaves with
  | rescaled hcarried hscale =>
      obtain ⟨s, hs, heq⟩ := Option.map_eq_some_iff.1 ((carries_scale_iff hreaches).1 hcarried)
      rw [hscale, hs, ← Value.real.inj heq]
      rfl
  | kept hnone hscale =>
      cases hs : rescaled? p e with
      | none => exact hscale
      | some s => exact absurd ((carries_scale_iff hreaches).2 (by rw [hs]; rfl)) (hnone (.real s))

theorem turns_of_reaches (h : Reaches p e as) :
    Turns p e { e with scale := (rescaled? p e).or e.scale } := by
  refine ⟨as, h, ?_⟩
  cases hs : rescaled? p e with
  | none => exact .kept (fun v hv => by simp [hs, carries_scale_iff h] at hv) rfl
  | some s => exact .rescaled ((carries_scale_iff h).2 (by rw [hs]; rfl)) rfl

end

theorem toRat?_stepUp : Scalar.toRat? (1.2 : Float) =
    some ((5404319552844595 : Nat) * (2 : Rat) ^ (-52 : Int)) := by
  rw [Binary.toRat?_eq_value?]
  rfl

theorem toRat?_stepDown : Scalar.toRat? (0.8 : Float) =
    some ((7205759403792794 : Nat) * (2 : Rat) ^ (-53 : Int)) := by
  rw [Binary.toRat?_eq_value?]
  rfl

variable {s : Float} {p : Plan Float} {e e' : Element Float}

theorem exists_value (h : Scalable s) : ∃ q, Scalar.toRat? s = some q ∧ 0 < q := by
  obtain ⟨hfinite, hlow⟩ := h
  obtain ⟨q, hq⟩ := Option.isSome_iff_exists.1 hfinite
  refine ⟨q, hq, lt_of_lt_of_le ?_ ((Binary.le_iff_le Binary.toRat?_hundredth hq).1 hlow)⟩
  norm_num

/-- A larger scale is smaller only after it lay above ten. -/
theorem not_scaled_lt_iff (h : Scalable s) : ¬ scaled s 1.2 < s ↔ ¬ (10.0 : Float) < s := by
  obtain ⟨q, hq, hpos⟩ := exists_value h
  exact Binary.not_clamp_lt_iff (by decide +kernel)
    (Binary.not_mul_lt_self hq toRat?_stepUp hpos (by norm_num))

/-- A smaller scale is larger only after it lay below a tenth. -/
theorem not_lt_scaled_iff (h : Scalable s) : ¬ s < scaled s 0.8 ↔ ¬ s < (0.1 : Float) := by
  obtain ⟨q, hq, hpos⟩ := exists_value h
  have hstep : (0 : Rat) < (7205759403792794 : Nat) * 2 ^ (-53 : Int) := by norm_num
  exact Binary.not_lt_clamp_iff (Binary.isUndefined_mul hq toRat?_stepDown hpos hstep)
    (Binary.not_lt_mul_self hq toRat?_stepDown hpos hstep (by norm_num))

theorem size_of_turns (h : Turns p e e') : e'.size =
    if p.mentions .bigger then scaled e.size 1.2
    else if p.mentions .smaller then scaled e.size 0.8
    else e.size := by
  rw [Element.size, scale_of_turns h, rescaled?]
  split_ifs <;> rfl

/-- An edit obeys the word for the scale unless it reverses it. -/
theorem obeys_iff (hs : Scalable e.size) (h : Turns p e e') :
    Obeys p e e' ↔ ¬ Reverses p e.size := by
  have hsize := size_of_turns h
  cases hbigger : p.mentions .bigger with
  | true =>
      have hobeys : Obeys p e e' ↔ ¬ e'.size < e.size :=
        ⟨fun h => h.bigger hbigger, fun h => ⟨fun _ => h, by simp [hbigger]⟩⟩
      rw [hobeys, hsize, hbigger, if_pos rfl, not_scaled_lt_iff hs]
      simp [Reverses, hbigger]
  | false =>
      cases hsmaller : p.mentions .smaller with
      | true =>
          have hobeys : Obeys p e e' ↔ ¬ e.size < e'.size :=
            ⟨fun h => h.smaller hbigger hsmaller, fun h => ⟨by simp [hbigger], fun _ _ => h⟩⟩
          rw [hobeys, hsize, hbigger, hsmaller, if_neg Bool.false_ne_true, if_pos rfl,
            not_lt_scaled_iff hs]
          simp [Reverses, hbigger, hsmaller]
      | false =>
          refine iff_of_true ⟨by simp [hbigger], by simp [hsmaller]⟩ ?_
          simp [Reverses, hbigger, hsmaller]

/-! ## Runs of edits -/

/-- Edits one after the other: each plan with the element that its edit leaves. -/
inductive Run : Element Float → List (Plan Float × Element Float) → Prop
  | nil {e : Element Float} : Run e []
  | cons {p : Plan Float} {e e' : Element Float} {rest : List (Plan Float × Element Float)} :
      Turns p e e' → Run e' rest → Run e ((p, e') :: rest)

/-- Each edit of a run obeys the word for the scale. -/
def Obeyed : Element Float → List (Plan Float × Element Float) → Prop
  | _, [] => True
  | e, (p, e') :: rest => Obeys p e e' ∧ Obeyed e' rest

/-- A scale within the range of edits. -/
structure Settled (s : Float) : Prop where
  finite : Scalar.isFinite s = true
  low : ¬ s < (0.1 : Float)
  high : ¬ (10.0 : Float) < s

theorem settled_scaled (s factor : Float) : Settled (scaled s factor) where
  finite := Binary.isFinite_clamp (by decide +kernel) (by decide +kernel)
  low := Binary.not_lt_low _ _ _
  high := Binary.not_lt_clamp (by decide +kernel) (by decide +kernel)

theorem Settled.scalable (h : Settled s) : Scalable s := by
  obtain ⟨q, hq⟩ := Option.isSome_iff_exists.1 h.finite
  have htenth : Scalar.toRat? (0.1 : Float) =
      some ((7205759403792794 : Nat) * (2 : Rat) ^ (-56 : Int)) := by
    rw [Binary.toRat?_eq_value?]
    rfl
  have hlow := mt (Binary.lt_iff_lt hq htenth).2 h.low
  refine ⟨h.finite, (Binary.le_iff_le Binary.toRat?_hundredth hq).2 (le_trans ?_ (not_lt.1 hlow))⟩
  norm_num

theorem Settled.not_reverses (h : Settled s) (p : Plan Float) : ¬ Reverses p s := by
  rintro (⟨-, habove⟩ | ⟨-, -, hbelow⟩)
  · exact h.high habove
  · exact h.low hbelow

theorem size_of_not_rescales (h : Turns p e e') (hp : rescales p = false) : e'.size = e.size := by
  obtain ⟨hbigger, hsmaller⟩ := Bool.or_eq_false_iff.1 hp
  rw [size_of_turns h, hbigger, hsmaller]
  rfl

theorem settled_of_rescales (h : Turns p e e') (hp : rescales p = true) : Settled e'.size := by
  rw [size_of_turns h]
  split_ifs with hbigger hsmaller
  · exact settled_scaled _ _
  · exact settled_scaled _ _
  · simp [rescales, hbigger, hsmaller] at hp

theorem Settled.of_turns (hs : Settled e.size) (h : Turns p e e') : Settled e'.size := by
  cases hp : rescales p with
  | true => exact settled_of_rescales h hp
  | false => rwa [size_of_not_rescales h hp]

variable {steps : List (Plan Float × Element Float)}

/-- From a scale within the range on, all edits obey. -/
theorem obeyed_of_settled (h : Run e steps) (hs : Settled e.size) : Obeyed e steps := by
  induction h with
  | nil => trivial
  | cons hturns _ ih =>
      exact ⟨(obeys_iff hs.scalable hturns).2 (hs.not_reverses _), ih (hs.of_turns hturns)⟩

/-- The edits of a run obey the words for the scale unless the first one that has such a word
reverses it. -/
theorem obeyed_iff (hs : Scalable e.size) (h : Run e steps) :
    Obeyed e steps ↔
      ∀ p, (steps.map Prod.fst).find? rescales = some p → ¬ Reverses p e.size := by
  induction h with
  | nil => simp [Obeyed]
  | @cons p e e' rest hturns hrest ih =>
      rw [Obeyed, obeys_iff hs hturns, List.map_cons, List.find?_cons]
      cases hp : rescales p with
      | true =>
          have hlater := obeyed_of_settled hrest (settled_of_rescales hturns hp)
          simp [hlater]
      | false =>
          have hsame := size_of_not_rescales hturns hp
          rw [hsame] at ih
          have hkeeps : ¬ Reverses p e.size := by
            obtain ⟨hbigger, hsmaller⟩ := Bool.or_eq_false_iff.1 hp
            simp [Reverses, hbigger, hsmaller]
          simp [hkeeps, ih hs]

/-- A request to make an element bigger. -/
def growth (e : Element Float) : Request Float where
  prompt := "make it bigger"
  selected := some e

theorem exists_growth {e : Element Float} (hnamed : e.id ≠ "") : ∃ p e',
    Plan.ofRequest (Settings.read fun _ => none) (growth e) = .ok p ∧
      p.mentions .bigger = true ∧ Turns p e e' ∧ e'.id = e.id := by
  have hshort : Text.ShortRuns "make it bigger".toList :=
    Text.shortRuns_of_length_le (by decide +kernel)
  have hold : Intent.createKeywords.any
      (fun k => k.isIn (Features.normalize "make it bigger").toList) = false := by decide +kernel
  have hone : Keyword.all.isIn (Features.normalize "make it bigger").toList = false := by
    decide +kernel
  have hbigger : Keyword.bigger.isIn (Features.normalize "make it bigger").toList = true := by
    decide +kernel
  obtain ⟨p, hp, hfollows, haimed⟩ := exists_aimed (Settings.read fun _ => none)
    (r := growth e) hshort hold hone rfl hnamed
  exact ⟨p, _, hp, (hfollows.mentions _).trans hbigger, turns_of_reaches (.alone haimed), rfl⟩

/-- A circle without a scale that is made bigger twice. -/
theorem obeyed_growing : ∃ p e' q e'',
    Plan.ofRequest (Settings.read fun _ => none) (growth dot) = .ok p ∧
      Plan.ofRequest (Settings.read fun _ => none) (growth e') = .ok q ∧ Scalable dot.size ∧
      Run dot [(p, e'), (q, e'')] ∧ Obeyed dot [(p, e'), (q, e'')] := by
  obtain ⟨p, e', hp, hbigger, hturns, hid⟩ := exists_growth (e := dot) (by decide)
  obtain ⟨q, e'', hq, -, hturns', -⟩ := exists_growth (e := e') (by rw [hid]; decide)
  have hscalable : Scalable dot.size := ⟨by decide +kernel, by decide +kernel⟩
  have hrun : Run dot [(p, e'), (q, e'')] := .cons hturns (.cons hturns' .nil)
  refine ⟨p, e', q, e'', hp, hq, hscalable, hrun, (obeyed_iff hscalable hrun).2 ?_⟩
  intro first hfirst
  have hrescales : rescales p = true := by rw [rescales, hbigger, Bool.true_or]
  rw [List.map_cons, List.find?_cons, hrescales, Option.some.injEq] at hfirst
  subst hfirst
  rintro (⟨-, habove⟩ | ⟨hnone, -⟩)
  · exact absurd habove (by decide +kernel)
  · exact Bool.false_ne_true (hnone.symm.trans hbigger)

/-- A circle that is twenty times as large. -/
def giant : Element Float := { dot with scale := some 20.0 }

/-- To make the large circle bigger makes it smaller. -/
theorem not_obeys_giant : ∃ p e',
    Plan.ofRequest (Settings.read fun _ => none) (growth giant) = .ok p ∧ Scalable giant.size ∧
      Turns p giant e' ∧ p.mentions .bigger = true ∧ e'.size < giant.size := by
  obtain ⟨p, e', hp, hbigger, hturns, -⟩ := exists_growth (e := giant) (by decide)
  refine ⟨p, e', hp, ⟨by decide +kernel, by decide +kernel⟩, hturns, hbigger, ?_⟩
  rw [size_of_turns hturns, hbigger, if_pos rfl]
  decide +kernel

end Edit

end Storyboard
