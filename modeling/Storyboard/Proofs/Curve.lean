import Mathlib.Data.List.Forall2
import Storyboard.Curve
import Storyboard.Proofs.Decimal
/-!
# The spelling of curves

The path data of a curve is a row of segments, a letter with as many points as it takes.  Which
letters they are is settled by the counts that the curve is built from, and every coordinate is a
plain numeral of the value rounded to two places.
-/

namespace Storyboard.Curve

open Decimal (Numeral)

/-! ## Path data -/

/-- A letter of path data and the points after it. -/
structure Segment where
  letter : Char
  points : List (Numeral × Numeral)

/-- How many points a letter takes. -/
def arity : Char → Nat
  | 'M' | 'L' | 'T' => 1
  | 'Q' => 2
  | 'C' => 3
  | _ => 0

namespace Segment

def text (s : Segment) : List Char :=
  s.letter :: [' '].intercalate (s.points.map fun p => p.1.text ++ ',' :: p.2.text)

def row (segments : List Segment) : List Char := [' '].intercalate (segments.map text)

end Segment

namespace Command

variable {α : Type}

def letter : Command α → Char
  | move _ => 'M'
  | line _ => 'L'
  | quadratic _ _ => 'Q'
  | cubic _ _ _ => 'C'
  | smooth _ => 'T'
  | close => 'Z'

def points : Command α → List (Point α)
  | move p | line p | smooth p => [p]
  | quadratic c p => [c, p]
  | cubic a b p => [a, b, p]
  | close => []

theorem length_points (c : Command α) : c.points.length = arity c.letter := by
  cases c <;> rfl

variable [Scalar α]

theorem toList_text (c : Command α) : c.text.toList =
    c.letter :: [' '].intercalate (c.points.map fun p => (pointText p).toList) := by
  cases c <;> simp [text, letter, points, List.intercalate]

/-- No coordinate of the command is infinite or undefined. -/
def Finite (c : Command α) : Prop :=
  ∀ p ∈ c.points, Scalar.isFinite p.1 = true ∧ Scalar.isFinite p.2 = true

end Command

section

variable {α : Type} [Scalar α]

/-- A numeral for a number rounded to two places. -/
def Marks (n : Numeral) (x : α) : Prop := ∃ q, Scalar.toRat? x = some q ∧ n.Shows q

/-- A segment with the letter of a command and numerals for its coordinates. -/
structure Segment.Draws (s : Segment) (c : Command α) : Prop where
  letter : s.letter = c.letter
  points : List.Forall₂ (fun n p => Marks n.1 p.1 ∧ Marks n.2 p.2) s.points c.points

theorem Segment.Draws.length_points {s : Segment} {c : Command α} (h : s.Draws c) :
    s.points.length = arity s.letter := by
  rw [h.points.length_eq, h.letter, c.length_points]

theorem exists_marks {x : α} (h : Scalar.isFinite x = true) :
    ∃ n : Numeral, (coordinate x).toList = n.text ∧ Marks n x := by
  obtain ⟨q, hq⟩ := Option.isSome_iff_exists.1 h
  obtain ⟨n, htext, hshows⟩ := Decimal.shows_hundredths q
  exact ⟨n, by rw [coordinate, hq]; exact htext, q, hq, hshows⟩

theorem exists_forall₂ {β γ : Type} {R : γ → β → Prop} {bs : List β} (h : ∀ b ∈ bs, ∃ c, R c b) :
    ∃ cs, List.Forall₂ R cs bs := by
  induction bs with
  | nil => exact ⟨[], .nil⟩
  | cons b bs ih =>
      obtain ⟨⟨c, hc⟩, hbs⟩ := List.forall_mem_cons.1 h
      obtain ⟨cs, hcs⟩ := ih hbs
      exact ⟨c :: cs, .cons hc hcs⟩

theorem map_eq_of_forall₂ {β γ δ : Type} {f : γ → δ} {g : β → δ} {cs : List γ} {bs : List β}
    (h : List.Forall₂ (fun c b => f c = g b) cs bs) : cs.map f = bs.map g := by
  induction h <;> simp_all

theorem exists_draws {c : Command α} (h : c.Finite) :
    ∃ s : Segment, s.text = c.text.toList ∧ s.Draws c := by
  have hpoint : ∀ p ∈ c.points, ∃ n : Numeral × Numeral,
      n.1.text ++ ',' :: n.2.text = (pointText p).toList ∧ Marks n.1 p.1 ∧ Marks n.2 p.2 := by
    intro p hp
    obtain ⟨x, hx, hmarks⟩ := exists_marks (h p hp).1
    obtain ⟨y, hy, hmarks'⟩ := exists_marks (h p hp).2
    exact ⟨(x, y), by simp [pointText, hx, hy], hmarks, hmarks'⟩
  obtain ⟨ns, hns⟩ := exists_forall₂ hpoint
  refine ⟨⟨c.letter, ns⟩, ?_, rfl, hns.imp fun _ _ h => h.2⟩
  rw [Segment.text, c.toList_text, map_eq_of_forall₂ (hns.imp fun _ _ h => h.1)]

/-- The text of a row of finite commands is a row of segments. -/
theorem exists_segments {commands : List (Command α)} (h : ∀ c ∈ commands, c.Finite) :
    ∃ segments, (render commands).toList = Segment.row segments ∧
      List.Forall₂ Segment.Draws segments commands := by
  obtain ⟨segments, hsegments⟩ := exists_forall₂ fun c hc => exists_draws (h c hc)
  refine ⟨segments, ?_, hsegments.imp fun _ _ h => h.2⟩
  rw [render, String.toList_intercalate, Segment.row,
    map_eq_of_forall₂ (hsegments.imp fun _ _ h => h.1), List.map_map]
  rfl

end

/-! ## Counting the letters -/

section

variable {α : Type} [Scalar α]

theorem map_letter_blob (radius : α) (lobes : Int) :
    (blob radius lobes).map Command.letter =
      'M' :: (List.replicate lobes.toNat 'Q' ++ if 0 < lobes then ['Z'] else []) := by
  have hlength : (blobPoints radius lobes.toNat).length = lobes.toNat := by simp [blobPoints]
  unfold blob
  cases hpoints : blobPoints radius lobes.toNat with
  | nil =>
      rw [hpoints, List.length_nil] at hlength
      have : ¬0 < lobes := by omega
      simp [← hlength, this, Command.letter]
  | cons first rest =>
      -- Every point is paired with the next one around, so there are as many strokes as points.
      rw [hpoints, List.length_cons] at hlength
      have : 0 < lobes := by omega
      simp [← hlength, this, Function.comp_def, Command.letter]

theorem map_letter_arches (amplitude step : α) (index : Nat) (x : α) (n : Nat) :
    (arches amplitude step index x n).map Command.letter = List.replicate n 'Q' := by
  induction n generalizing index x with
  | zero => rfl
  | succ n ih => rw [arches, List.map_cons, ih, List.replicate_succ, Command.letter]

theorem map_letter_wave (width amplitude : α) (cycles : Int) :
    (wave width amplitude cycles).map Command.letter =
      'M' :: List.replicate (2 * max 1 cycles).toNat 'Q' := by
  have hcount : (2 * max 1 cycles).toNat = (max 1 cycles).toNat * 2 := by omega
  rw [wave, List.map_cons, map_letter_arches, hcount, Command.letter]

theorem map_letter_spiral (turns radius : α) (points : Int) :
    (spiral turns radius points).map Command.letter =
      'M' :: List.replicate (max 12 points + 1).toNat 'L' := by
  have hcount : (max 12 points + 1).toNat = (max 12 points).toNat + 1 := by omega
  simp [spiral, hcount, Function.comp_def, Command.letter]

theorem map_letter_star (points : Int) (outer inner : α) :
    (star points outer inner).map Command.letter =
      'M' :: (List.replicate (2 * max 2 points - 1).toNat 'L' ++ ['Z']) := by
  -- The first corner is the move, every other one a line.
  have hcount : (max 2 points).toNat * 2 = (2 * max 2 points - 1).toNat + 1 := by omega
  simp [star, hcount, List.range_succ_eq_map, Function.comp_def, Command.letter]

theorem map_letter_zigzag (width height : α) (peaks : Int) :
    (zigzag width height peaks).map Command.letter =
      'M' :: List.replicate (max 3 peaks - 1).toNat 'L' := by
  have hcount : (max 3 peaks - 1).toNat = (max 3 peaks).toNat - 2 + 1 := by omega
  simp [zigzag, hcount, Function.comp_def, Command.letter, List.replicate_succ']

end

/-! ## Sketches -/

/-- A curve with the numbers it is built from. -/
inductive Sketch (α : Type) where
  | blob (radius : α) (lobes : Int)
  | wave (width amplitude : α) (cycles : Int)
  | spiral (turns radius : α) (points : Int)
  | heart (size : α)
  | star (points : Int) (outer inner : α)
  | zigzag (width height : α) (peaks : Int)
  | mountain (width height : α)
  | cloud (width height : α)
  | dune (width height : α)

namespace Sketch

variable {α : Type}

/-- The letters of a curve after the first, which moves to its start, up to the one that may
close it. -/
def strokes : Sketch α → List Char
  | blob _ lobes => List.replicate lobes.toNat 'Q'
  | wave _ _ cycles => List.replicate (2 * max 1 cycles).toNat 'Q'
  | spiral _ _ points => List.replicate (max 12 points + 1).toNat 'L'
  | heart _ => ['C', 'C']
  | star points _ _ => List.replicate (2 * max 2 points - 1).toNat 'L'
  | zigzag _ _ peaks => List.replicate (max 3 peaks - 1).toNat 'L'
  | mountain _ _ => List.replicate 7 'L'
  | cloud _ _ => ['C', 'C', 'C', 'L']
  | dune _ _ => ['Q', 'T', 'L']

def closes : Sketch α → Bool
  | blob _ lobes => 0 < lobes
  | heart _ | star _ _ _ | mountain _ _ | cloud _ _ | dune _ _ => true
  | wave _ _ _ | spiral _ _ _ | zigzag _ _ _ => false

theorem not_mem_strokes (s : Sketch α) : 'M' ∉ s.strokes ∧ 'Z' ∉ s.strokes := by
  cases s <;> simp [strokes, List.mem_replicate]

variable [Scalar α]

def commands : Sketch α → List (Command α)
  | blob radius lobes => Curve.blob radius lobes
  | wave width amplitude cycles => Curve.wave width amplitude cycles
  | spiral turns radius points => Curve.spiral turns radius points
  | heart size => Curve.heart size
  | star points outer inner => Curve.star points outer inner
  | zigzag width height peaks => Curve.zigzag width height peaks
  | mountain width height => Curve.mountain width height
  | cloud width height => Curve.cloud width height
  | dune width height => Curve.dune width height

def path (s : Sketch α) : String := render s.commands

theorem map_letter_commands (s : Sketch α) : s.commands.map Command.letter =
    'M' :: (s.strokes ++ if s.closes then ['Z'] else []) := by
  cases s with
  | blob radius lobes => simp [commands, map_letter_blob, strokes, closes]
  | wave width amplitude cycles => simp [commands, map_letter_wave, strokes, closes]
  | spiral turns radius points => simp [commands, map_letter_spiral, strokes, closes]
  | star points outer inner => simp [commands, map_letter_star, strokes, closes]
  | zigzag width height peaks => simp [commands, map_letter_zigzag, strokes, closes]
  | heart | mountain | cloud | dune => rfl

/-- The segments that the path data of a curve is made of. -/
structure Spells (s : Sketch α) (segments : List Segment) : Prop where
  text : s.path.toList = Segment.row segments
  letters : segments.map Segment.letter = 'M' :: (s.strokes ++ if s.closes then ['Z'] else [])
  full : ∀ segment ∈ segments, segment.points.length = arity segment.letter
  drawn : List.Forall₂ Segment.Draws segments s.commands

end Sketch

/-- A blob without lobes is a single move to the origin. -/
theorem render_blob_of_nonpos (radius : Float) {lobes : Int} (h : lobes ≤ 0) :
    render (blob radius lobes) = "M0,0" := by
  have hcount : lobes.toNat = 0 := by omega
  have hzero : coordinate (0.0 : Float) = "0" := by decide +kernel
  simp [blob, blobPoints, hcount, render, Command.text, pointText, hzero]

/-- The path data of a curve with finite coordinates is well formed: one move first, then the
strokes, last what closes it; every letter has its points, and every coordinate its numeral. -/
theorem Sketch.path_spells (s : Sketch Float) (hfinite : ∀ c ∈ s.commands, c.Finite) :
    ('M' ∉ s.strokes ∧ 'Z' ∉ s.strokes) ∧
    (∃ segments, s.Spells segments) ∧
    ∀ radius lobes, s = .blob radius lobes → lobes ≤ 0 → s.path = "M0,0" := by
  refine ⟨s.not_mem_strokes, ?_, ?_⟩
  · obtain ⟨segments, htext, hdraws⟩ := exists_segments hfinite
    refine ⟨segments, htext, ?_, ?_, hdraws⟩
    · rw [map_eq_of_forall₂ (hdraws.imp fun _ _ h => h.letter), map_letter_commands]
    · exact ((List.forall₂_and_left _ _).1 (hdraws.imp fun _ _ h => ⟨h.length_points, h⟩)).1
  · rintro radius lobes rfl hlobes
    exact render_blob_of_nonpos radius hlobes

theorem Sketch.path_spells_wave :
    let s := Sketch.wave (200.0 : Float) 20.0 1
    (∀ c ∈ s.commands, c.Finite) ∧ ∃ segments, s.Spells segments := by
  have hfinite : ∀ c ∈ (Sketch.wave (200.0 : Float) 20.0 1).commands, c.Finite := by
    unfold Command.Finite
    decide +kernel
  exact ⟨hfinite, (Sketch.path_spells _ hfinite).2.1⟩

example : render (wave (200.0 : Float) 20.0 1) = "M-100,0 Q-50,-20 0,0 Q50,20 100,0" := by
  decide +kernel

end Storyboard.Curve
