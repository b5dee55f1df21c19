import Storyboard.Proofs.Binary.Product
import Storyboard.Proofs.Draft.Canvas
import Storyboard.Proofs.Plan
/-!
# The element that a prompt means

Without a selected element, a prompt means one of the canvas.  A word for a kind of element leaves
only the elements of that kind, if there are any, and a word for a rank then tells the best of
them.  Of several that are equally good, the first one is meant.
-/

namespace Storyboard.Selection

/-! ## What a prompt asks for -/

/-- The kind of element that a prompt names. -/
def named? {α : Type} (f : Features α) : Option String :=
  if f.mentions .circle then some "circle"
  else if f.mentions .rect then some "rect"
  else if f.mentions .text then some "text"
  else if f.mentions .path then some "path"
  else if f.mentions .photo then some "image"
  else none

/-- An element that a prompt can mean: of the kind that it names, unless there is none of it. -/
def Candidate {α : Type} (f : Features α) (elements : List (Element α)) (e : Element α) : Prop :=
  e ∈ elements ∧
    ∀ kind, named? f = some kind → (∃ e' ∈ elements, e'.kind = kind) → e.kind = kind

/-- How much of the artboard an element covers. -/
def covered (e : Element Float) : Float :=
  if e.kind = "rect" ∨ e.kind = "image" then e.width.getD 0.0 * e.height.getD 0.0
  else if e.kind = "circle" then Curve.pi * Scalar.square (e.r.getD 0.0)
  else 0.0

/-- One element outranks another in the eyes of a prompt. -/
def Outranks (f : Features Float) (e e' : Element Float) : Prop :=
  if f.mentions .largest then covered e' < covered e
  else if f.mentions .smallest then covered e < covered e'
  else if f.mentions .leftmost then e.x.getD 0.0 < e'.x.getD 0.0
  else if f.mentions .rightmost then e'.x.getD 0.0 < e.x.getD 0.0
  else if f.mentions .topmost then e.y.getD 0.0 < e'.y.getD 0.0
  else if f.mentions .bottommost then e'.y.getD 0.0 < e.y.getD 0.0
  else False

/-- An element can be compared with others: its place is not undefined, and its area finite. -/
structure Comparable (e : Element Float) : Prop where
  x : Scalar.isUndefined (e.x.getD 0.0) = false
  y : Scalar.isUndefined (e.y.getD 0.0) = false
  area : Scalar.isFinite (covered e) = true

/-- The element that a prompt means: a candidate that none outranks, and the first such one. -/
structure Meant (f : Features Float) (elements : List (Element Float)) (e : Element Float) :
    Prop where
  candidate : Candidate f elements e
  best : ∀ e', Candidate f elements e' → ¬ Outranks f e' e
  first : ∃ before after, elements = before ++ e :: after ∧
    ∀ e' ∈ before, Candidate f elements e' → Outranks f e e'

/-! ## Candidates -/

section

variable {α : Type} {f : Features α} {elements : List (Element α)}

theorem kind_of_find? :
    (kinds.find? fun (k, _) => f.mentions k).map Prod.snd = named? f := by
  simp only [kinds, List.find?_cons, List.find?_nil, named?]
  cases f.mentions .circle <;> cases f.mentions .rect <;> cases f.mentions .text <;>
    cases f.mentions .path <;> cases f.mentions .photo <;> rfl

theorem candidates_ne_nil (h : elements ≠ []) : candidates f elements ≠ [] := by
  unfold candidates
  split
  · split
    · exact h
    · rename_i named hne
      exact hne
  · exact h

theorem candidates_of_present {kind : String} (hnamed : named? f = some kind)
    (hpresent : ∃ e ∈ elements, e.kind = kind) :
    candidates f elements = elements.filter fun e => e.kind = kind := by
  obtain ⟨e, he, hkind⟩ := hpresent
  obtain ⟨⟨k, _⟩, hfind, rfl⟩ := Option.map_eq_some_iff.1 (kind_of_find?.trans hnamed)
  unfold candidates
  rw [hfind]
  dsimp only
  split
  · rename_i hnone
    exact absurd (by simpa using hkind) (List.filter_eq_nil_iff.1 hnone e he)
  · rfl

theorem candidates_of_absent
    (h : ∀ kind, named? f = some kind → ¬ ∃ e ∈ elements, e.kind = kind) :
    candidates f elements = elements := by
  unfold candidates
  split
  · rename_i k kind hfind
    have habsent := h kind (kind_of_find?.symm.trans (congrArg (Option.map Prod.snd) hfind))
    split
    · rfl
    · rename_i hne
      refine absurd (List.filter_eq_nil_iff.2 fun e he => ?_) hne
      simpa using fun hkind => habsent ⟨e, he, hkind⟩
  · rfl

/-- The candidates stand in the order of the canvas. -/
theorem candidates_eq_filter (f : Features α) (elements : List (Element α)) :
    ∃ p : Element α → Bool, candidates f elements = elements.filter p ∧
      ∀ e ∈ elements, p e = true ↔ Candidate f elements e := by
  by_cases hnamed : ∃ kind, named? f = some kind ∧ ∃ e ∈ elements, e.kind = kind
  · obtain ⟨kind, hkind, hpresent⟩ := hnamed
    refine ⟨_, candidates_of_present hkind hpresent, fun e he => ?_⟩
    simp only [Candidate, he, hkind, Option.some.injEq, true_and, decide_eq_true_eq, forall_eq']
    exact ⟨fun h _ => h, fun h => h hpresent⟩
  · have habsent : ∀ kind, named? f = some kind → ¬ ∃ e ∈ elements, e.kind = kind :=
      fun kind hkind hpresent => hnamed ⟨kind, hkind, hpresent⟩
    refine ⟨fun _ => true, ?_, fun e he => ?_⟩
    · rw [candidates_of_absent habsent, List.filter_true]
    · refine iff_of_true rfl ⟨he, fun kind hkind hpresent => ?_⟩
      exact absurd hpresent (habsent kind hkind)

theorem mem_candidates_iff {e : Element α} :
    e ∈ candidates f elements ↔ Candidate f elements e := by
  obtain ⟨p, hfilter, hp⟩ := candidates_eq_filter f elements
  rw [hfilter, List.mem_filter]
  exact ⟨fun h => (hp e h.1).1 h.2, fun h => ⟨h.1, (hp e h.1).2 h⟩⟩

end

/-! ## Measures -/

/-- What a ranking compares. -/
def size : Ranking → Element Float → Float
  | .largest, e | .smallest, e => covered e
  | .leftmost, e | .rightmost, e => e.x.getD 0.0
  | .topmost, e | .bottommost, e => e.y.getD 0.0
  | .none, _ => 0.0

variable {f : Features Float} {elements : List (Element Float)} {e e' : Element Float}
  {r : Ranking}

/-- A radius whose square is too large leaves no area finite. -/
theorem area_eq (h : Scalar.isFinite (covered e) = true) : area e = .ok (covered e) := by
  unfold area covered at *
  split
  · rfl
  · split
    · rename_i hbox hcircle
      rw [if_neg hbox, if_pos hcircle] at h
      have hsquare := Binary.isFinite_of_mul h
      simp [hsquare]
    · rfl

theorem measure_eq (h : Comparable e) (r : Ranking) : measure r e = .ok (size r e) := by
  cases r
  case largest => exact area_eq h.area
  case smallest => exact area_eq h.area
  all_goals rfl

theorem measured_eq (h : ∀ e ∈ elements, Comparable e) (r : Ranking) :
    measured r elements = .ok (elements.map fun e => (e, size r e)) := by
  induction elements with
  | nil => rfl
  | cons e rest ih =>
      obtain ⟨he, hrest⟩ := List.forall_mem_cons.1 h
      rw [measured, measure_eq he, ih hrest]
      rfl

theorem isUndefined_size (h : Comparable e) (r : Ranking) :
    Scalar.isUndefined (size r e) = false := by
  have harea := Binary.isUndefined_of_isFinite h.area
  cases r
  case none => exact Binary.isUndefined_of_isFinite (x := 0.0) (by decide)
  all_goals first | exact harea | exact h.x | exact h.y

theorem better_trans {a b c : Float} (hab : better r a b = true) (hbc : better r b c = true) :
    better r a c = true := by
  cases r
  case none => cases hab
  all_goals
    simp only [better, decide_eq_true_eq] at *
    first | exact Binary.lt_trans hab hbc | exact Binary.lt_trans hbc hab

theorem not_better_of_better {a b : Float} (h : better r a b = true) :
    ¬ better r b a = true := by
  cases r
  case none => cases h
  all_goals
    simp only [better, decide_eq_true_eq] at *
    exact Binary.not_lt_of_lt h

theorem not_better_trans {a b c : Float} (hb : Scalar.isUndefined b = false)
    (hab : ¬ better r a b = true) (hbc : ¬ better r b c = true) : ¬ better r a c = true := by
  cases r
  case none => exact Bool.false_ne_true
  all_goals
    simp only [better, decide_eq_true_eq] at *
    first | exact Binary.not_lt_trans hb hab hbc | exact Binary.not_lt_trans hb hbc hab

theorem better_iff :
    better (ranking f) (size (ranking f) e) (size (ranking f) e') = true ↔ Outranks f e e' := by
  simp only [ranking, rankings, List.find?_cons, List.find?_nil, Outranks]
  cases f.mentions .largest <;> cases f.mentions .smallest <;> cases f.mentions .leftmost <;>
    cases f.mentions .rightmost <;> cases f.mentions .topmost <;>
    cases f.mentions .bottommost <;> simp [better, size]

theorem not_outranks_of_outranks (h : Outranks f e e') : ¬ Outranks f e' e := by
  rw [← better_iff] at *
  exact not_better_of_better h

/-! ## The best of the candidates -/

/-- The best element is better than all before it, and none after it is better. -/
theorem exists_best (r : Ranking) (first : Element Float) {rest : List (Element Float)}
    (h : ∀ e ∈ rest, Comparable e) : ∃ before e after, first :: rest = before ++ e :: after ∧
      best (better r) (first, size r first) (rest.map fun e => (e, size r e)) = e ∧
      (∀ e' ∈ before, better r (size r e) (size r e') = true) ∧
      ∀ e' ∈ after, ¬ better r (size r e') (size r e) = true := by
  induction rest generalizing first with
  | nil => exact ⟨[], first, [], rfl, rfl, by simp, by simp⟩
  | cons next rest ih =>
      obtain ⟨hnext, hrest⟩ := List.forall_mem_cons.1 h
      rw [List.map_cons, best]
      by_cases hbetter : better r (size r next) (size r first) = true
      · -- The first element is worse than the next one, and so than any that is best from there.
        rw [if_pos hbetter]
        obtain ⟨before, e, after, hsplit, hbest, hbefore, hafter⟩ := ih next hrest
        refine ⟨first :: before, e, after, by rw [hsplit]; rfl, hbest, ?_, hafter⟩
        refine List.forall_mem_cons.2 ⟨?_, hbefore⟩
        cases before with
        | nil => rwa [← (List.cons.inj hsplit).1]
        | cons _ before =>
            have he := hbefore next ((List.cons.inj hsplit).1 ▸ List.mem_cons_self)
            exact better_trans he hbetter
      · rw [if_neg hbetter]
        obtain ⟨before, e, after, hsplit, hbest, hbefore, hafter⟩ := ih first hrest
        cases before with
        | nil =>
            obtain ⟨rfl, rfl⟩ := List.cons.inj hsplit
            exact ⟨[], first, next :: rest, rfl, hbest, hbefore,
              List.forall_mem_cons.2 ⟨hbetter, hafter⟩⟩
        | cons _ before =>
            obtain ⟨rfl, htail⟩ := List.cons.inj hsplit
            obtain ⟨hfirst, hbefore⟩ := List.forall_mem_cons.1 hbefore
            refine ⟨first :: next :: before, e, after, by rw [htail]; rfl, hbest, ?_, hafter⟩
            refine List.forall_mem_cons.2 ⟨hfirst, List.forall_mem_cons.2 ⟨?_, hbefore⟩⟩
            -- What is better than the first element is better than the next one, too.
            by_contra hworse
            exact not_better_trans (isUndefined_size hnext r) hworse hbetter hfirst

/-- The candidate that outranks all before it, and that none after it outranks, is meant. -/
theorem meant_of_split {before after : List (Element Float)}
    (hsplit : candidates f elements = before ++ e :: after)
    (hbefore : ∀ e' ∈ before, Outranks f e e') (hafter : ∀ e' ∈ after, ¬ Outranks f e' e) :
    Meant f elements e := by
  refine ⟨mem_candidates_iff.1 (hsplit ▸ List.mem_append_right _ List.mem_cons_self),
    fun e' he' => ?_, ?_⟩
  · rw [← mem_candidates_iff, hsplit, List.mem_append, List.mem_cons] at he'
    rcases he' with he' | rfl | he'
    · exact not_outranks_of_outranks (hbefore e' he')
    · exact fun h => not_outranks_of_outranks h h
    · exact hafter e' he'
  · obtain ⟨p, hfilter, hp⟩ := candidates_eq_filter f elements
    rw [hfilter, List.filter_eq_append_iff] at hsplit
    obtain ⟨front, back, helements, hfront, hcons⟩ := hsplit
    obtain ⟨skipped, after', hback', hskipped, -, -⟩ := List.filter_eq_cons_iff.1 hcons
    refine ⟨front ++ skipped, after', by rw [helements, hback', List.append_assoc], ?_⟩
    intro e' he' hcandidate
    have hpositive := (hp e' hcandidate.1).2 hcandidate
    rcases List.mem_append.1 he' with he' | he'
    · exact hbefore e' (hfront ▸ List.mem_filter.2 ⟨he', hpositive⟩)
    · exact absurd hpositive (hskipped e' he')

/-- On a canvas with elements that can be compared, a prompt means the first of the best ones. -/
theorem pick_meant (hne : elements ≠ []) (h : ∀ e ∈ elements, Comparable e) :
    ∃ e, pick f elements = .ok (some e) ∧ Meant f elements e := by
  have hcandidates : ∀ e ∈ candidates f elements, Comparable e := fun e he =>
    h e (mem_of_mem_candidates he)
  have hmeasured := measured_eq hcandidates (ranking f)
  cases hlist : candidates f elements with
  | nil => exact absurd hlist (candidates_ne_nil hne)
  | cons first rest =>
      rw [hlist] at hcandidates hmeasured
      obtain ⟨before, e, after, hsplit, hbest, hbefore, hafter⟩ :=
        exists_best (ranking f) first (List.forall_mem_cons.1 hcandidates).2
      refine ⟨e, ?_, meant_of_split (hlist.trans hsplit)
        (fun e' he' => better_iff.1 (hbefore e' he'))
        fun e' he' => mt better_iff.2 (hafter e' he')⟩
      rw [pick, hlist, hmeasured, ← hbest]
      rfl

/-- Some boxes on the canvas, two of them of the same area, and a text without a place. -/
def shelf : List (Element Float) := [
  { id := "caption", kind := "text" },
  { id := "small", width := some 10.0, height := some 20.0 },
  { id := "wide", width := some 40.0, height := some 10.0 },
  { id := "high", width := some 10.0, height := some 40.0 }]

theorem pick_meant_shelf : ∃ f : Features Float, Features.ofText "the largest box" = .ok f ∧
    shelf ≠ [] ∧ (∀ e ∈ shelf, Comparable e) ∧
      ∃ e, pick f shelf = .ok (some e) ∧ Meant f shelf e := by
  obtain ⟨f, hf⟩ : ∃ f : Features Float, Features.ofText "the largest box" = .ok f :=
    Features.ofText_returns (Text.shortRuns_of_no_digits (by decide +kernel))
  have hcomparable : ∀ e ∈ shelf, Comparable e := by
    simp only [shelf, List.forall_mem_cons]
    refine ⟨?_, ?_, ?_, ?_, List.forall_mem_nil _⟩ <;>
      exact ⟨by decide +kernel, by decide +kernel, by decide +kernel⟩
  exact ⟨f, hf, List.cons_ne_nil _ _, hcomparable, pick_meant (List.cons_ne_nil _ _) hcomparable⟩

end Storyboard.Selection
