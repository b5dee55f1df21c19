import Storyboard.Proofs.Edit.Reach
/-!
# What a prompt asks of an element

The values that a prompt names reach the element that it edits: a colour, a stroke, an opacity, the
measures of circles and rectangles and the words of a text.  Only a stroke of width zero is lost, as
it is taken for no width at all.
-/

namespace Storyboard

variable {α : Type} [Scalar α]

/-! ## Quantities and words in a prompt -/

/-- A prompt never asks for empty words. -/
theorem Quotation.content?_ne_empty (raw small : List Char) : content? raw small ≠ some "" := by
  unfold content?
  dsimp only
  split
  · rename_i hquoted
    simpa using hquoted
  · split
    · simp
    · split
      · simp
      · rename_i hne
        simpa using hne

theorem Features.strokeWidth_of_ofText {raw : String} {f : Features α} (h : ofText raw = .ok f) :
    f.strokeWidth = Measure.strokeWidth? (normalize raw).toList := by
  unfold ofText at h
  obtain ⟨count, -, rfl⟩ := map_eq_ok_iff.1 h
  dsimp only

theorem Features.content_ne_empty_of_ofText {raw : String} {f : Features α}
    (h : ofText raw = .ok f) : f.content ≠ some "" := by
  unfold ofText at h
  obtain ⟨count, -, rfl⟩ := map_eq_ok_iff.1 h
  dsimp only
  exact Quotation.content?_ne_empty _ _

theorem Plan.features_of_ofRequest {settings : Settings α} {r : Request α} {p : Plan α}
    (h : ofRequest settings r = .ok p) : Features.ofText r.prompt = .ok p.features := by
  obtain ⟨f, hf, rfl⟩ := map_eq_ok_iff.1 h
  exact hf

namespace Edit

/-! ## Asked and granted -/

/-- A prompt asks for a value of a property of an element. -/
inductive Asks (p : Plan α) (e : Element α) : String → Value α → Prop
  | stroke {c : String} : p.features.colour = some c → p.mentions .stroke = true →
      Asks p e "stroke" (.text c)
  | fill {c : String} : p.features.colour = some c → p.mentions .stroke = false →
      Asks p e "fill" (.text c)
  | strokeWidth {w : α} : p.features.strokeWidth = some w → p.mentions .stroke = true →
      Asks p e "strokeWidth" (.real w)
  | opacity {o : α} : p.features.opacity = some o → Asks p e "opacity" (.real o)
  | radius {r : α} : e.kind = "circle" →
      (p.features.explicitExtent "circle" p.board).r = some r → Asks p e "r" (.real r)
  | width {w : α} : e.kind = "rect" →
      (p.features.explicitExtent "rect" p.board).width = some w → Asks p e "width" (.real w)
  | height {h : α} : e.kind = "rect" →
      (p.features.explicitExtent "rect" p.board).height = some h → Asks p e "height" (.real h)
  | text {s : String} : e.kind = "text" → p.features.content = some s →
      Asks p e "text" (.text s)

/-- The actions that reach an element carry all that the prompt asks of it. -/
def Granted (p : Plan α) (e : Element α) (as : List (Action α)) : Prop :=
  ∀ name v, Asks p e name v → Carries as e.id name v

/-- The prompt asks for a stroke of width zero. -/
def Strokeless (p : Plan α) : Prop :=
  p.mentions .stroke = true ∧ ∃ w, p.features.strokeWidth = some w ∧ Scalar.isZero w = true

variable {p : Plan α} {e : Element α} {as : List (Action α)}

theorem name_of_asks {name : String} {v : Value α} (h : Asks p e name v) : name ∉ ["x", "y"] := by
  cases h <;> simp

/-- Whatever a prompt asks of an element is among the properties that it changes, unless it is a
stroke of width zero. -/
theorem get?_changes_of_asks (hcontent : p.features.content ≠ some "") (hstroke : ¬ Strokeless p)
    {name : String} {v : Value α} (h : Asks p e name v) :
    Fields.get? (changes p e) name = some v := by
  rw [get?_changes, get?_measures]
  cases h with
  | stroke hcolour hstroke => simp [hcolour, hstroke]
  | fill hcolour hstroke => simp [hcolour, hstroke]
  | strokeWidth hwidth hmention =>
      rename_i w
      have hnonzero : Scalar.isZero w = false := by
        by_contra hzero
        exact hstroke ⟨hmention, w, hwidth, by simpa using hzero⟩
      simp [hmention, nonzero?, hwidth, hnonzero]
  | opacity ho => simp [ho]
  | radius hkind hr => simp [hkind, hr]
  | width hkind hw => simp [hkind, hw]
  | height hkind hh => simp [hkind, hh]
  | text hkind hs =>
      have hsome : content? p.features = some _ :=
        Option.filter_eq_some_iff.2 ⟨hs, by simpa [hs] using hcontent⟩
      simp [hkind, hsome]

/-- A stroke of width zero is among the properties that no prompt changes. -/
theorem not_granted_of_strokeless (h : Reaches p e as) (hstroke : Strokeless p) :
    ¬ Granted p e as := by
  obtain ⟨hmention, w, hw, hzero⟩ := hstroke
  intro hgranted
  have hcarried := hgranted _ _ (.strokeWidth hw hmention)
  rw [carries_iff h (by simp), get?_changes, get?_measures] at hcarried
  simp [hmention, nonzero?, hw, hzero] at hcarried

/-- The edit of a request gives each element that it reaches all that the prompt asks of it, unless
the prompt asks for a stroke of width zero. -/
theorem granted_iff {settings : Settings α} {r : Request α}
    (hp : Plan.ofRequest settings r = .ok p) (h : Reaches p e as) (n : Nat) :
    (∃ d, build p n = .ok d ∧ as <:+: d.actions) ∧ (Granted p e as ↔ ¬ Strokeless p) := by
  have hcontent := Features.content_ne_empty_of_ofText (Plan.features_of_ofRequest hp)
  refine ⟨build_of_reaches h n, fun hgranted hstroke => ?_, fun hstroke name v hasks => ?_⟩
  · exact not_granted_of_strokeless h hstroke hgranted
  · rw [carries_iff h (name_of_asks hasks)]
    exact get?_changes_of_asks hcontent hstroke hasks

/-- A circle that gets a red outline. -/
def outlined : Request Float where
  prompt := "red border 3"
  selected := some dot

theorem granted_outlined : ∃ p as,
    Plan.ofRequest (Settings.read fun _ => none) outlined = .ok p ∧ Reaches p dot as ∧
      p.features.strokeWidth = some 3.0 ∧ Granted p dot as := by
  obtain ⟨p, hp, hfollows, haimed⟩ := exists_aimed (Settings.read fun _ => none)
    (r := outlined) (e := dot) (Text.shortRuns_of_length_le (by decide +kernel))
    (by decide +kernel) (by decide +kernel) rfl (by decide)
  have hwidth : p.features.strokeWidth = some 3.0 :=
    (Features.strokeWidth_of_ofText (Plan.features_of_ofRequest hp)).trans (by decide +kernel)
  refine ⟨p, _, hp, .alone haimed, hwidth, (granted_iff hp (.alone haimed) 0).2.2 ?_⟩
  rintro ⟨-, w, hw, hzero⟩
  cases hwidth.symm.trans hw
  exact absurd hzero (by decide +kernel)

/-- A circle whose outline is to go. -/
def unrimmed : Request Float where
  prompt := "set border 0"
  selected := some dot

/-- A border of width zero does not reach the circle. -/
theorem not_granted_unrimmed : ∃ p as,
    Plan.ofRequest (Settings.read fun _ => none) unrimmed = .ok p ∧ Reaches p dot as ∧
      Asks p dot "strokeWidth" (.real 0.0) ∧ ¬ Carries as dot.id "strokeWidth" (.real 0.0) := by
  obtain ⟨p, hp, hfollows, haimed⟩ := exists_aimed (Settings.read fun _ => none)
    (r := unrimmed) (e := dot) (Text.shortRuns_of_length_le (by decide +kernel))
    (by decide +kernel) (by decide +kernel) rfl (by decide)
  have hwidth : p.features.strokeWidth = some 0.0 :=
    (Features.strokeWidth_of_ofText (Plan.features_of_ofRequest hp)).trans (by decide +kernel)
  have hstroke : p.mentions .stroke = true := (hfollows.mentions _).trans (by decide +kernel)
  refine ⟨p, _, hp, .alone haimed, .strokeWidth hwidth hstroke, ?_⟩
  rw [carries_iff (.alone haimed) (by simp), get?_changes, get?_measures]
  simp [hstroke, hwidth, nonzero?, show Scalar.isZero (0.0 : Float) = true by decide +kernel]

end Edit

end Storyboard
