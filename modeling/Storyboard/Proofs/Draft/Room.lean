import Mathlib.Algebra.Group.Int.Defs
import Storyboard.Plan
import Storyboard.Proofs.Binary.Tame
import Storyboard.Proofs.Except
import Storyboard.Proofs.Prompt.Counting
/-!
# Plans that leave room

A request is plain when its lengths and times are ordinary numbers.  The plan of a plain request is
modest: what generators compute with leaves room for their arithmetic, whatever the surroundings
say about sizes and times that the request does not give.
-/

namespace Storyboard

/-! ## Plain requests -/

section

variable {α : Type}

/-- The place and the measures that an element has. -/
def Element.measures (e : Element α) : List α :=
  [e.x, e.y, e.width, e.height, e.r].flatMap Option.toList

/-- The lengths that a prompt gives. -/
def Measure.lengths [Scalar α] (cs : List Char) : List α :=
  [strokeWidth? cs, radius? cs, width? cs, height? cs, square? cs].flatMap Option.toList

/-- The lengths and times of a request. -/
def Request.numbers [Scalar α] (r : Request α) : List α :=
  (r.artboard.toList.flatMap fun board => [board.width, board.height]) ++ r.duration.toList
    ++ (r.selected.toList ++ r.existing).flatMap Element.measures
    ++ Measure.lengths (Features.normalize r.prompt).toList

end

/-- The lengths and times of a request are ordinary. -/
def Request.Plain (r : Request Float) : Prop := ∀ x ∈ r.numbers, Ordinary x

instance : DecidablePred Request.Plain := fun r =>
  inferInstanceAs (Decidable (∀ x ∈ r.numbers, Ordinary x))

/-! ## Modest plans -/

theorem holds_getD {β : Type} {P : β → Prop} {o : Option β} {default : β}
    (h : ∀ b, o = some b → P b) (hdefault : P default) : P (o.getD default) := by
  cases o with
  | none => exact hdefault
  | some b => exact h b rfl

/-- A number that is tame if it is known. -/
def Known (n : Nat) (x? : Option Float) : Prop := ∀ x, x? = some x → Tame n x

namespace Known

variable {m n : Nat} {x : Float} {x? y? : Option Float}

@[simp] theorem none : Known n none := by
  rintro x ⟨⟩

@[simp] theorem some_iff : Known n (some x) ↔ Tame n x := by
  simp [Known]

theorem mono (h : Known m x?) (hmn : m ≤ n) : Known n x? :=
  fun x hx => (h x hx).mono hmn

theorem or (hx : Known n x?) (hy : Known n y?) : Known n (x?.or y?) := by
  cases x? with
  | none => exact hy
  | some x => exact hx

theorem filter {accepts : Float → Bool} (h : Known n x?) : Known n (x?.filter accepts) :=
  fun x hx => h x (Option.filter_eq_some_iff.1 hx).1

theorem getD (h : Known n x?) (hx : Tame n x) : Tame n (x?.getD x) :=
  holds_getD h hx

end Known

/-- The place and the measures of an element leave room. -/
structure Element.Modest (e : Element Float) : Prop where
  x : Known 0 e.x
  y : Known 0 e.y
  width : Known 0 e.width
  height : Known 0 e.height
  r : Known 0 e.r

/-- The sides of an artboard leave room. -/
structure Artboard.Modest (board : Artboard Float) : Prop where
  width : Tame 0 board.width
  height : Tame 0 board.height

/-- What a prompt says about numbers leaves room. -/
structure Features.Modest (f : Features Float) : Prop where
  count : f.count ≤ Measure.maxCount
  opacity : Known 1 f.opacity
  strokeWidth : Known 0 f.strokeWidth
  radius : Known 0 (Measure.radius? f.text.toList)
  width : Known 0 (Measure.width? f.text.toList)
  height : Known 0 (Measure.height? f.text.toList)
  square : Known 0 (Measure.square? f.text.toList)

/-- What the generators compute with leaves room. -/
structure Plan.Modest (p : Plan Float) : Prop where
  width : Tame 0 p.width
  height : Tame 0 p.height
  duration : Tame 0 p.duration
  beats : p.beats = .ofDuration p.duration
  palette : p.palette.toList.length ≤ Palette.limit
  features : p.features.Modest
  canvas : ∀ e ∈ p.selected.toList ++ p.existing, e.Modest

theorem Plan.Modest.minDim {p : Plan Float} (h : p.Modest) : Tame 0 p.minDim :=
  h.width.min h.height

/-! ## Surroundings -/

namespace Settings

theorem tame_duration (env : Surroundings) : Tame 0 (read (α := Float) env).duration := by
  have hdefault : Slight 4.0 := by decide
  unfold read scalar
  dsimp only
  split
  · exact hdefault.tame
  · split
    · exact Tame.clamp (by decide) (by decide) (by decide) _
    · exact hdefault.tame

theorem tame_wholeNumber {env : Surroundings} {name : String} {fallback low high : Int}
    (hlow : 0 ≤ low) (hhigh : high < 2 ^ 53) (hle : low ≤ high)
    (hfallback : low ≤ fallback ∧ fallback ≤ high) :
    Tame 0 (Scalar.ofInt (wholeNumber env name fallback low high) : Float) := by
  have hrange : low ≤ wholeNumber env name fallback low high ∧
      wholeNumber env name fallback low high ≤ high := by
    unfold wholeNumber
    split
    · omega
    · exact hfallback
  obtain ⟨n, hn⟩ := Int.eq_ofNat_of_zero_le (Int.le_trans hlow hrange.1)
  rw [hn]
  exact (slight_ofNat (by omega)).tame

theorem modest_artboard (env : Surroundings) :
    Artboard.Modest ⟨Scalar.ofInt (read (α := Float) env).artboardWidth,
      Scalar.ofInt (read (α := Float) env).artboardHeight⟩ := by
  unfold read
  dsimp only
  exact ⟨tame_wholeNumber (by decide) (by decide) (by decide) (by decide),
    tame_wholeNumber (by decide) (by decide) (by decide) (by decide)⟩

end Settings

/-! ## Plans of plain requests -/

theorem Measure.tame_opacity {cs : List Char} {x : Float} (h : opacity? cs = some x) :
    Tame 1 x := by
  have hpercent : ∀ x : Float, Tame 1 (Scalar.clamp x 0.0 100.0 / 100.0) := fun x =>
    (Tame.clamp (by decide) (by decide) (by decide) x).quotient (by decide)
  have hclamped : ∀ x : Float, Tame 1 (Scalar.clamp x 0.0 1.0) := fun x =>
    (Tame.clamp (by decide) (by decide) (by decide) x).mono (by decide)
  unfold opacity? at h
  split at h
  · have hshare : Slight 0.2 := by decide
    rw [← Option.some.inj h]
    exact hshare.tame.mono (by decide)
  · split at h
    · rw [← Option.some.inj h]
      exact hpercent _
    · obtain ⟨q, -, rfl⟩ := Option.map_eq_some_iff.1 h
      exact hclamped _

theorem Palette.length_resolve_le (text : String) (fallback : List String) :
    (resolve text fallback).toList.length ≤ limit := by
  have hlist : ∀ (cs : List String) palette, ofList? (cs.take limit) = some palette →
      palette.toList.length ≤ limit := by
    intro cs palette h
    have hlength := List.length_take_le limit cs
    cases htake : cs.take limit with
    | nil =>
      rw [htake] at h
      cases h
    | cons c rest =>
      rw [htake] at h hlength
      rw [← Option.some.inj h]
      exact hlength
  unfold resolve
  cases hpalette : (ofList? ((named text).take limit)).or (ofList? (fallback.take limit)) with
  | none => decide
  | some palette =>
    rcases Option.or_eq_some_iff.1 hpalette with h | ⟨-, h⟩
    · exact hlist _ _ h
    · exact hlist _ _ h

theorem Element.modest_of_ordinary {e : Element Float} (h : ∀ x ∈ e.measures, Ordinary x) :
    e.Modest := by
  have hmeasure : ∀ x? ∈ [e.x, e.y, e.width, e.height, e.r], Known 0 x? := by
    intro x? hmem x hx
    exact (h x (List.mem_flatMap.2 ⟨x?, hmem, by simp [hx]⟩)).tame
  constructor <;> exact hmeasure _ (by simp)

theorem Features.modest_of_ofText {raw : String} {f : Features Float} (h : ofText raw = .ok f)
    (hraw : ∀ x ∈ Measure.lengths (normalize raw).toList, Ordinary x) : f.Modest := by
  have hlength : ∀ x? ∈ [Measure.strokeWidth? (normalize raw).toList,
      Measure.radius? (normalize raw).toList, Measure.width? (normalize raw).toList,
      Measure.height? (normalize raw).toList, Measure.square? (normalize raw).toList],
      Known 0 x? := by
    intro x? hmem x hx
    exact (hraw x (List.mem_flatMap.2 ⟨x?, hmem, by simp [hx]⟩)).tame
  unfold ofText at h
  obtain ⟨count, hcount, rfl⟩ := map_eq_ok_iff.1 h
  constructor
  · exact (Measure.count_range hcount).2
  · intro x hx
    dsimp only at hx
    exact Measure.tame_opacity hx
  all_goals
    dsimp only
    exact hlength _ (by simp)

/-- The plan of a plain request is modest. -/
theorem Plan.modest_of_ofRequest {env : Surroundings} {r : Request Float} {p : Plan Float}
    (hr : r.Plain) (h : ofRequest (Settings.read env) r = .ok p) : p.Modest := by
  obtain ⟨f, hf, rfl⟩ := map_eq_ok_iff.1 h
  obtain ⟨hr, hprompt⟩ := List.forall_mem_append.1 hr
  obtain ⟨hr, hcanvas⟩ := List.forall_mem_append.1 hr
  obtain ⟨hboard, hduration⟩ := List.forall_mem_append.1 hr
  have hsides : ∀ board, r.artboard = some board → board.Modest := by
    intro board hb
    have hside : ∀ x ∈ [board.width, board.height], Ordinary x := fun x hx =>
      hboard x (List.mem_flatMap.2 ⟨board, Option.mem_toList.2 hb, hx⟩)
    exact ⟨(hside _ (by simp)).tame, (hside _ (by simp)).tame⟩
  have hgiven := holds_getD hsides (Settings.modest_artboard env)
  have hleast : Slight minDuration := by decide
  have htime : Tame 0 (r.duration.getD (Settings.read env).duration) :=
    holds_getD (fun d hd => (hduration d (Option.mem_toList.2 hd)).tame)
      (Settings.tame_duration env)
  exact {
    width := hgiven.1
    height := hgiven.2
    duration := hleast.tame.max htime
    beats := rfl
    palette := Palette.length_resolve_le _ _
    features := Features.modest_of_ofText hf hprompt
    canvas := fun e he => Element.modest_of_ordinary fun x hx =>
      hcanvas x (List.mem_flatMap.2 ⟨e, he, hx⟩) }

end Storyboard
