import Mathlib.Analysis.Real.Sqrt
import Mathlib.Order.Interval.Set.Basic
import Mathlib.Tactic.Linarith
import Mathlib.Tactic.NormNum
import Mathlib.Tactic.Ring
import Storyboard.Arrangement
import Storyboard.Scalar.Exact
/-!
# Places that are spread out

Several elements share the middle three fifths of the artboard.  A row and a column are cut into
equal steps from one end to the other.  A grid has the square root of the number of elements,
rounded up, for its columns, and is filled row by row.  No two elements have one place.
-/

namespace Storyboard.Arrangement

/-! ## Columns and rows -/

theorem columns_spec (count : Nat) :
    count ≤ columns count * columns count ∧ ∀ k < columns count, k * k < count := by
  obtain ⟨k, hk⟩ : ∃ k, (List.range (count + 1)).find? (fun k => count ≤ k * k) = some k := by
    refine Option.isSome_iff_exists.1 (List.find?_isSome.2 ⟨count, by simp, ?_⟩)
    exact decide_eq_true (Nat.le_mul_self count)
  have hcolumns : columns count = k := by rw [columns, hk, Option.getD_some]
  obtain ⟨hfits, -, hfirst⟩ := List.find?_range_eq_some.1 hk
  rw [hcolumns]
  exact ⟨of_decide_eq_true hfits, fun j hj => by simpa using hfirst j hj⟩

theorem columns_eq_ceil_sqrt (count : Nat) : columns count = ⌈√(count : ℝ)⌉₊ := by
  obtain ⟨hfits, hfirst⟩ := columns_spec count
  apply le_antisymm
  · by_contra hlt
    have hsquare := hfirst _ (not_le.1 hlt)
    have hroot : √(count : ℝ) ≤ ⌈√(count : ℝ)⌉₊ := Nat.le_ceil _
    rw [Real.sqrt_le_left (Nat.cast_nonneg _), sq] at hroot
    exact absurd (by exact_mod_cast hroot) (not_le.2 hsquare)
  · rw [Nat.ceil_le, Real.sqrt_le_left (Nat.cast_nonneg _), sq]
    exact_mod_cast hfits

theorem two_le_columns {count : Nat} (h : 2 ≤ count) : 2 ≤ columns count := by
  by_contra hlt
  have hfits := (columns_spec count).1
  have hone : columns count * columns count ≤ 1 * 1 :=
    Nat.mul_le_mul (by omega) (by omega)
  omega

/-- The rows hold all elements, and without the last one they do not. -/
theorem rows_spec {count : Nat} (h : 2 ≤ count) :
    (rows count - 1) * columns count < count ∧ count ≤ rows count * columns count := by
  have hpos : 0 < columns count := Nat.lt_of_lt_of_le Nat.two_pos (two_le_columns h)
  have hdiv := Nat.div_add_mod (count + columns count - 1) (columns count)
  have hmod := Nat.mod_lt (count + columns count - 1) hpos
  rw [← rows, Nat.mul_comm] at hdiv
  rw [Nat.sub_mul, Nat.one_mul]
  omega

theorem row_lt {count index : Nat} (h : 2 ≤ count) (hindex : index < count) :
    index / columns count < rows count := by
  rw [Nat.div_lt_iff_lt_mul (Nat.lt_of_lt_of_le Nat.two_pos (two_le_columns h))]
  exact Nat.lt_of_lt_of_le hindex (rows_spec h).2

/-! ## Places along a length -/

/-- The `index`-th of `n` places along a length. -/
def tick (length : Rat) (n index : Nat) : Rat := length * 0.2 + gap length n * Scalar.ofNat index

variable {length : Rat} {n i j : Nat}

theorem tick_eq (length : Rat) (n i : Nat) :
    tick length n i = length * 0.2 + gap length n * (i : Rat) :=
  rfl

theorem tick_zero (length : Rat) (n : Nat) : tick length n 0 = length * 0.2 := by
  rw [tick_eq, Nat.cast_zero, mul_zero, add_zero]

theorem tick_succ_sub (length : Rat) (n i : Nat) :
    tick length n (i + 1) - tick length n i = gap length n := by
  rw [tick_eq, tick_eq, Nat.cast_succ]
  ring

theorem tick_last (h : 1 < n) : tick length n (n - 1) = length * 0.8 := by
  have hne : ((n - 1 : Nat) : Rat) ≠ 0 := Nat.cast_ne_zero.2 (by omega)
  have hgap : gap length n * ((n - 1 : Nat) : Rat) = length * 0.6 := by
    rw [gap, if_pos h]
    exact div_mul_cancel₀ _ hne
  rw [tick_eq, hgap]
  norm_num
  ring

theorem gap_pos (hlength : 0 < length) (h : 1 < n) : 0 < gap length n := by
  have hsteps : (0 : Rat) < ((n - 1 : Nat) : Rat) := Nat.cast_pos.2 (by omega)
  rw [gap, if_pos h]
  exact div_pos (mul_pos hlength (by norm_num)) hsteps

theorem tick_lt_tick (hlength : 0 < length) (h : 1 < n) (hij : i < j) :
    tick length n i < tick length n j := by
  have hgap := gap_pos hlength h
  rw [tick_eq, tick_eq]
  gcongr

theorem strictMonoOn_tick (hlength : 0 < length) (n : Nat) :
    StrictMonoOn (tick length n) (Set.Iio n) := by
  intro i _ j hj hij
  exact tick_lt_tick hlength (Nat.lt_of_le_of_lt (Nat.succ_le_of_lt (Nat.zero_lt_of_lt hij)) hj) hij

/-- A place along a length leaves a fifth of it on both sides. -/
theorem tick_mem_Icc (hlength : 0 < length) (hi : i < n) :
    tick length n i ∈ Set.Icc (length * 0.2) (length * 0.8) := by
  by_cases h : 1 < n
  · have hgap := gap_pos hlength h
    have hfirst : tick length n 0 ≤ tick length n i := by
      rw [tick_eq, tick_eq]
      gcongr
      omega
    have hlast : tick length n i ≤ tick length n (n - 1) := by
      rw [tick_eq, tick_eq]
      gcongr
      omega
    rw [tick_zero] at hfirst
    rw [tick_last h] at hlast
    exact ⟨hfirst, hlast⟩
  · obtain rfl : i = 0 := by omega
    rw [tick_zero]
    exact ⟨le_rfl, by gcongr; norm_num⟩

theorem half_mem_Icc (hlength : 0 < length) :
    length / 2.0 ∈ Set.Icc (length * 0.2) (length * 0.8) := by
  constructor <;> norm_num <;> linarith

/-- Some numbers go in equal steps from a fifth of a length to four fifths of it. -/
structure Evenly (length : Rat) (xs : List Rat) : Prop where
  first : xs.head? = some (length * 0.2)
  last : xs.getLast? = some (length * 0.8)
  steps : ∃ step > 0, xs.IsChain fun x y => y - x = step

theorem evenly_ticks (hlength : 0 < length) (h : 1 < n) :
    Evenly length ((List.range n).map (tick length n)) where
  first := by
    obtain ⟨k, rfl⟩ := Nat.exists_eq_add_of_lt h
    simp [List.head?_range, tick_zero]
  last := by
    simp [List.getLast?_range, tick_last h, Nat.ne_of_gt (Nat.lt_trans Nat.one_pos h)]
  steps := by
    refine ⟨gap length n, gap_pos hlength h, ?_⟩
    rw [List.isChain_map, List.isChain_range]
    exact fun i _ => tick_succ_sub length n i

/-! ## Places on the artboard -/

variable {count : Nat} {width height : Rat}

/-- Places fill the rows of a grid one after the other; only the last row may be short. -/
structure Gridded (cols : Nat) (ps : List (Rat × Rat)) : Prop where
  filled : ∃ xs ys : Nat → Rat, ∃ rows, StrictMonoOn xs (Set.Iio cols) ∧
    StrictMonoOn ys (Set.Iio rows) ∧ (rows - 1) * cols < ps.length ∧ ps.length ≤ rows * cols ∧
    ∀ i (h : i < ps.length), ps[i] = (xs (i % cols), ys (i / cols))

/-- The places of several elements: as many as elements, apart, away from the edges, and in the
order of their layout. -/
structure Spread (layout : Layout) (count : Nat) (width height : Rat) (ps : List (Rat × Rat)) :
    Prop where
  length : ps.length = count
  nodup : ps.Nodup
  inside : ∀ q ∈ ps, q ∈ Set.Icc (width * 0.2, height * 0.2) (width * 0.8, height * 0.8)
  row : layout = .row → Evenly width (ps.map Prod.fst) ∧ ∀ q ∈ ps, q.2 = height / 2
  column : layout = .column → Evenly height (ps.map Prod.snd) ∧ ∀ q ∈ ps, q.1 = width / 2
  grid : layout = .grid → Gridded ⌈√(count : ℝ)⌉₊ ps

theorem places_eq (layout : Layout) (h : 1 < count) (width height : Rat) :
    places layout count width height =
      (List.range count).map (place layout count width height) := by
  rw [places, Nat.max_eq_right (Nat.le_of_lt h)]

theorem place_row (h : 1 < count) (width height : Rat) (i : Nat) :
    place .row count width height i = (tick width count i, height / 2.0) :=
  if_neg (Nat.not_le.2 h)

theorem place_column (h : 1 < count) (width height : Rat) (i : Nat) :
    place .column count width height i = (width / 2.0, tick height count i) :=
  if_neg (Nat.not_le.2 h)

theorem place_grid (h : 1 < count) (width height : Rat) (i : Nat) :
    place .grid count width height i =
      (tick width (columns count) (i % columns count),
        tick height (rows count) (i / columns count)) :=
  if_neg (Nat.not_le.2 h)

theorem forall_mem_places {layout : Layout} {P : Rat × Rat → Prop} (h : 1 < count)
    (hplace : ∀ i < count, P (place layout count width height i)) :
    ∀ q ∈ places layout count width height, P q := by
  rw [places_eq _ h]
  intro q hq
  obtain ⟨i, hi, rfl⟩ := List.mem_map.1 hq
  exact hplace i (List.mem_range.1 hi)

/-- A coordinate that takes the places along a length in turn goes evenly. -/
theorem evenly_map_places {layout : Layout} {f : Rat × Rat → Rat} (hlength : 0 < length)
    (h : 1 < count) (hplace : ∀ i, f (place layout count width height i) = tick length count i) :
    Evenly length ((places layout count width height).map f) := by
  have hticks : (List.range count).map (f ∘ place layout count width height) =
      (List.range count).map (tick length count) :=
    List.map_congr_left fun i _ => hplace i
  rw [places_eq _ h, List.map_map, hticks]
  exact evenly_ticks hlength h

section

variable (hwidth : 0 < width) (hheight : 0 < height) (h : 2 ≤ count)

include hwidth hheight h

theorem place_mem_Icc (layout : Layout) (hi : i < count) :
    place layout count width height i ∈
      Set.Icc (width * 0.2, height * 0.2) (width * 0.8, height * 0.8) := by
  rw [Set.Icc_prod_eq, Set.mem_prod]
  cases layout with
  | row =>
    rw [place_row h]
    exact ⟨tick_mem_Icc hwidth hi, half_mem_Icc hheight⟩
  | column =>
    rw [place_column h]
    exact ⟨half_mem_Icc hwidth, tick_mem_Icc hheight hi⟩
  | grid =>
    have hcols := two_le_columns h
    rw [place_grid h]
    exact ⟨tick_mem_Icc hwidth (Nat.mod_lt i (by omega)), tick_mem_Icc hheight (row_lt h hi)⟩

theorem injOn_place (layout : Layout) :
    Set.InjOn (place layout count width height) (Set.Iio count) := by
  intro i hi j hj heq
  cases layout with
  | row =>
    rw [place_row h, place_row h] at heq
    exact (strictMonoOn_tick hwidth count).injOn hi hj (Prod.ext_iff.1 heq).1
  | column =>
    rw [place_column h, place_column h] at heq
    exact (strictMonoOn_tick hheight count).injOn hi hj (Prod.ext_iff.1 heq).2
  | grid =>
    have hcols := two_le_columns h
    rw [place_grid h, place_grid h] at heq
    have hmod := (strictMonoOn_tick hwidth _).injOn (Nat.mod_lt i (by omega))
      (Nat.mod_lt j (by omega)) (Prod.ext_iff.1 heq).1
    have hdiv := (strictMonoOn_tick hheight _).injOn (row_lt h hi) (row_lt h hj)
      (Prod.ext_iff.1 heq).2
    rw [← Nat.div_add_mod i (columns count), ← Nat.div_add_mod j (columns count), hmod, hdiv]

theorem gridded_places : Gridded (columns count) (places .grid count width height) := by
  have hlength : (places .grid count width height).length = count := by
    rw [places_eq _ h, List.length_map, List.length_range]
  refine ⟨tick width (columns count), tick height (rows count), rows count,
    strictMonoOn_tick hwidth _, strictMonoOn_tick hheight _, ?_, ?_, fun i hi => ?_⟩
  · rw [hlength]
    exact (rows_spec h).1
  · rw [hlength]
    exact (rows_spec h).2
  · simp only [places_eq _ h, List.getElem_map, List.getElem_range, place_grid h]

/-- The places of several elements are spread out, whatever the layout. -/
theorem spread_places (layout : Layout) :
    Spread layout count width height (places layout count width height) where
  length := by rw [places_eq _ h, List.length_map, List.length_range]
  nodup := by
    rw [places_eq _ h]
    refine List.nodup_range.map_on fun i hi j hj => ?_
    exact injOn_place hwidth hheight h layout (List.mem_range.1 hi) (List.mem_range.1 hj)
  inside := forall_mem_places h fun _ hi => place_mem_Icc hwidth hheight h layout hi
  row := by
    rintro rfl
    refine ⟨evenly_map_places hwidth h fun i => ?_, forall_mem_places h fun i _ => ?_⟩
    · rw [place_row h]
    · rw [place_row h]
      norm_num
  column := by
    rintro rfl
    refine ⟨evenly_map_places hheight h fun i => ?_, forall_mem_places h fun i _ => ?_⟩
    · rw [place_column h]
    · rw [place_column h]
      norm_num
  grid := by
    rintro rfl
    rw [← columns_eq_ceil_sqrt]
    exact gridded_places hwidth hheight h

end

/-- Five elements in a grid: a row of three, and one of two. -/
theorem spread_places_five : (0 : Rat) < 800 ∧ (0 : Rat) < 600 ∧ 2 ≤ 5 ∧
    Spread .grid 5 800 600 (places .grid 5 800 600) :=
  ⟨by norm_num, by norm_num, by norm_num,
    spread_places (by norm_num) (by norm_num) (by norm_num) .grid⟩

end Storyboard.Arrangement
