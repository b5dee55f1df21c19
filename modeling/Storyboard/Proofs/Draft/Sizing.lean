import Storyboard.Proofs.Draft.Canvas
import Storyboard.Proofs.Draft.Fitting
/-!
# Drafts with measured elements

The properties of a new element that have limits are numbers within them, whatever the plan: what
a generator does not fix it takes from a prompt, which keeps opacities and outlines in range, and
font sizes are moved into one.
-/

namespace Storyboard

open Storyboard.Action

/-- The properties of a new element that have limits. -/
def limited : List String := ["opacity", "scale", "strokeWidth", "fontSize"]

/-- A property with limits is a number within its range. -/
def Sized (field : String × Value Float) : Prop :=
  field.1 ∈ limited → ∃ x, field.2 = .real x ∧ Within field.1 x

@[simp] theorem sized_of_unlimited {name : String} {v : Value Float} (h : name ∉ limited) :
    Sized (name, v) :=
  fun hmem => absurd hmem h

@[simp] theorem sized_real {name : String} {x : Float} (h : Within name x) :
    Sized (name, .real x) :=
  fun _ => ⟨x, rfl, h⟩

theorem sized_setAll {fields others : Fields Float} (h : ∀ field ∈ fields, Sized field)
    (h' : ∀ field ∈ others, Sized field) : ∀ field ∈ Fields.setAll fields others, Sized field :=
  fun _ hfield => (Fields.mem_or_mem_of_mem_setAll hfield).elim (h _) (h' _)

namespace Action

/-- The limited properties of a new element are within their ranges. -/
def Measured : Action Float → Prop
  | add _ _ props _ => ∀ field ∈ props, Sized field
  | _ => True

@[simp] theorem measured_under {parent : String} {a : Action Float} :
    (under parent a).Measured ↔ a.Measured := by
  cases a <;> rfl

@[simp] theorem measured_key {id property easing : String} {time value : Float} :
    (key id property time value easing).Measured :=
  trivial

section

variable {id : String} {x y width height : Float} {fill stroke : Value Float}
  {strokeWidth : Float} {extra : Fields Float}

@[simp] theorem measured_rect (hwidth : Within "strokeWidth" strokeWidth)
    (hextra : ∀ field ∈ extra, Sized field) :
    (rect id x y width height fill stroke strokeWidth extra).Measured :=
  sized_setAll (by simp [strokeFields, limited, hwidth]) hextra

@[simp] theorem measured_circle {r : Float} (hwidth : Within "strokeWidth" strokeWidth)
    (hextra : ∀ field ∈ extra, Sized field) :
    (circle id x y r fill stroke strokeWidth extra).Measured :=
  sized_setAll (by simp [strokeFields, limited, hwidth]) hextra

@[simp] theorem measured_path {d : String} (hwidth : Within "strokeWidth" strokeWidth)
    (hextra : ∀ field ∈ extra, Sized field) :
    (path id x y d fill stroke strokeWidth extra).Measured :=
  sized_setAll (by simp [strokeFields, limited, hwidth])
    fun field hfield => hextra field (List.mem_filter.1 hfield).1

@[simp] theorem measured_text {content : String} {fontSize : Float}
    (hsize : Within "fontSize" fontSize) (hextra : ∀ field ∈ extra, Sized field) :
    (text id x y content fontSize fill extra).Measured :=
  sized_setAll (by simp [limited, hsize]) hextra

@[simp] theorem measured_group {parent : Parent} (hextra : ∀ field ∈ extra, Sized field) :
    (group id x y parent extra).Measured :=
  sized_setAll (by simp [limited]) hextra

@[simp] theorem measured_image {href : Option String} (hextra : ∀ field ∈ extra, Sized field) :
    (image id x y width height href extra).Measured := by
  refine sized_setAll ?_ hextra
  cases href with
  | none => simp [limited]
  | some h => by_cases hempty : h = "" <;> simp [hempty, limited]

end

end Action

/-- The new elements that actions add are within their limits. -/
def AllMeasured (as : List (Action Float)) : Prop := ∀ a ∈ as, a.Measured

@[simp] theorem allMeasured_nil : AllMeasured [] := List.forall_mem_nil _

@[simp] theorem allMeasured_cons {a : Action Float} {as : List (Action Float)} :
    AllMeasured (a :: as) ↔ a.Measured ∧ AllMeasured as :=
  List.forall_mem_cons

@[simp] theorem allMeasured_append {as bs : List (Action Float)} :
    AllMeasured (as ++ bs) ↔ AllMeasured as ∧ AllMeasured bs :=
  List.forall_mem_append

@[simp] theorem allMeasured_flatMap {β : Type} {bs : List β} {f : β → List (Action Float)} :
    AllMeasured (bs.flatMap f) ↔ ∀ b ∈ bs, AllMeasured (f b) :=
  List.forall_mem_flatMap

@[simp] theorem allMeasured_map_under {parent : String} {as : List (Action Float)} :
    AllMeasured (as.map (under parent)) ↔ AllMeasured as := by
  simp [AllMeasured]

@[simp] theorem allMeasured_ite_nil {c : Prop} [Decidable c] {as : List (Action Float)}
    (h : AllMeasured as) : AllMeasured (if c then as else []) :=
  forall_mem_ite_nil h

/-- Keyframes, changes and artboards add no element. -/
theorem allMeasured_of_adds {as : List (Action Float)} (h : ∀ a ∈ as, a.added? = none) :
    AllMeasured as := by
  intro a ha
  have hnone := h a ha
  cases a with
  | add => cases hnone
  | _ => trivial

/-! ## Generators -/

namespace Scene

theorem measured_of_builder? {archetype : Archetype} {make : Plan Float → Nat → Draft Float}
    (hmake : builder? archetype = some make) (p : Plan Float) (n : Nat) :
    AllMeasured (make p n).actions := by
  cases archetype <;>
    simp only [builder?, Option.some.injEq, reduceCtorEq] at hmake <;> subst hmake
  case sunset => simp [sunset, inGroup]
  case ocean => simp [ocean, inGroup]
  case city => simp [city, house, inGroup]
  case forest => simp [forest, tree, inGroup]
  case mountain => simp [mountain, driftingCloud, inGroup]
  case desert => simp [desert, inGroup]
  case space => simp [space, star, inGroup]
  case neonStudio => simp [neonStudio, strip, inGroup]
  case meadow => simp [meadow, inGroup]
  case genericScene => simp [generic, inGroup]

end Scene

theorem Rig.measured_animated (p : Plan Float) (n : Nat) :
    AllMeasured (animated p n).actions := by
  have hshapes : AllMeasured (shapes p n) := by
    unfold shapes
    cases buildOf p <;> simp
  have hmotion : AllMeasured (Motion.ofRig p.motion (ofPlan p n) p.beats) :=
    allMeasured_of_adds fun a ha => (Motion.mentions_ofRig ha).1
  simp [animated, draft, hshapes, hmotion]

theorem Shape.measured_build (p : Plan Float) (n : Nat) : AllMeasured (build p n).actions := by
  have hwidth : Within "strokeWidth" 4.0 ∧ Within "strokeWidth" 2.0 := by decide
  have helement : (element p (Placeholder.id (n + 1))).Measured := by
    unfold element
    dsimp only
    split <;> simp [hwidth, limited]
  simp [build, drawing, helement]

theorem Photo.measured_build (p : Plan Float) (n : Nat) : AllMeasured (build p n).actions := by
  have hwidth : Within "strokeWidth" 2.0 := by decide
  have hplace : ∀ (t : PhotoTarget Float) (n : Nat), AllMeasured (place p t n).2.1 := by
    intro t n
    unfold place
    split <;> simp
  unfold build
  split
  · have hbackdrop := hplace (target p 0.75)
    unfold layers
    dsimp only
    split <;> split <;> simp [hbackdrop, hwidth]
  · have hplaced := hplace (target p 0.7)
    unfold pan
    dsimp only
    split <;> split <;> simp [hplaced]

namespace Edit

variable {p : Plan Float}

theorem sized_extras {f : Features Float} (h : f.Tempered) : ∀ field ∈ extras f, Sized field := by
  unfold extras
  split
  · rename_i o ho
    simp [h.opacity o ho]
  · simp

theorem measured_fresh (h : p.features.Tempered) (id : String) (index : Nat) :
    (fresh p id index).1.Measured := by
  have hwidth := within_strokeWidth h
  have hextras := sized_extras h
  have hsize : ∀ size : Float, Within "fontSize" (Scalar.clamp size 18.0 96.0) := fun size =>
    within_of_bounds (b := ⟨1.0, none⟩) rfl (Binary.not_lt_of_clamp (by decide)) (by simp)
  unfold fresh
  dsimp only
  split
  · exact measured_circle hwidth hextras
  · exact measured_rect hwidth hextras
  · exact measured_text (hsize _) hextras

theorem measured_create (h : p.features.Tempered) (n : Nat) : AllMeasured (create p n).1 := by
  refine allMeasured_flatMap.2 fun index _ => allMeasured_cons.2 ⟨measured_fresh h _ index, ?_⟩
  exact allMeasured_of_adds fun a ha => (Animation.mentions ha).1

theorem measured_of_build {n : Nat} {d : Draft Float} (h : p.features.Tempered)
    (hd : build p n = .ok d) : AllMeasured d.actions := by
  have hrepaint : AllMeasured (repaint p.features).1 :=
    allMeasured_of_adds fun a ha => (mentions_repaint ha).1
  rcases build_cases hd with hall | rfl | ⟨e, -, rfl⟩
  · simp only [forAll?, Option.ite_none_right_eq_some, Option.some.injEq] at hall
    rw [← hall.2]
    exact allMeasured_append.2 ⟨hrepaint,
      allMeasured_of_adds fun a ha => (mentions_changeAll ha).1⟩
  · exact allMeasured_append.2 ⟨hrepaint, measured_create h n⟩
  · exact allMeasured_append.2 ⟨hrepaint,
      allMeasured_of_adds fun a ha => (mentions_change ha).1⟩

end Edit

theorem Weather.measured_overlay (p : Plan Float) (n : Nat) (parent : Option String)
    (origin : Float × Float) : AllMeasured (overlay p n parent origin) := by
  unfold overlay
  dsimp only
  split <;> simp [drop, flake]

theorem Camera.measured_motion (p : Plan Float) (anchor : String) (origin : Float × Float) :
    AllMeasured (motion p anchor origin) := by
  simp [motion]

end Storyboard
