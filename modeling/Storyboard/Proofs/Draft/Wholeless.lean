import Storyboard.Proofs.Draft.Canvas
/-!
# Drafts without whole numbers

Whole numbers come in with requests and are turned into scalars there.  No generator puts one into
a property or a keyframe, whatever the plan, so the gate never compares one that is beyond all
scalars.
-/

namespace Storyboard

open Storyboard.Action

variable {α : Type}

/-- The property is no whole number. -/
def Wholeless (field : String × Value α) : Prop := field.2.kind ≠ .int

@[simp] theorem wholeless_real (name : String) (x : α) : Wholeless (name, .real x) :=
  Kind.noConfusion

@[simp] theorem wholeless_text (name s : String) : Wholeless (α := α) (name, .text s) :=
  Kind.noConfusion

@[simp] theorem wholeless_null (name : String) : Wholeless (α := α) (name, .null) :=
  Kind.noConfusion

@[simp] theorem wholeless_object (name : String) (fields : Fields α) :
    Wholeless (name, .object fields) :=
  Kind.noConfusion

theorem wholeless_setAll {fields others : Fields α} (h : ∀ field ∈ fields, Wholeless field)
    (h' : ∀ field ∈ others, Wholeless field) :
    ∀ field ∈ Fields.setAll fields others, Wholeless field :=
  fun _ hfield => (Fields.mem_or_mem_of_mem_setAll hfield).elim (h _) (h' _)

namespace Action

/-- No property of the element and no value of the keyframe is a whole number, and what is said
of the artboard is no list and no object. -/
def Wholeless : Action α → Prop
  | add _ _ props _ => ∀ field ∈ props, Storyboard.Wholeless field
  | update _ props => ∀ field ∈ props, Storyboard.Wholeless field
  | board props => ∀ field ∈ props, field.2.isContainer = false
  | keyframe k => Storyboard.Wholeless (k.property, k.value)

@[simp] theorem wholeless_under {parent : String} {a : Action α} :
    (under parent a).Wholeless ↔ a.Wholeless := by
  cases a <;> rfl

@[simp] theorem wholeless_key {id property easing : String} {time value : α} :
    (key id property time value easing).Wholeless :=
  wholeless_real _ _

section

variable [Scalar α] {id : String} {x y width height : α} {fill stroke : Value α}
  {strokeWidth : α} {extra : Fields α}

@[simp] theorem wholeless_rect (hfill : Storyboard.Wholeless ("fill", fill))
    (hstroke : Storyboard.Wholeless ("stroke", stroke))
    (hextra : ∀ field ∈ extra, Storyboard.Wholeless field) :
    (rect id x y width height fill stroke strokeWidth extra).Wholeless :=
  wholeless_setAll (by simp [strokeFields, hfill, hstroke]) hextra

@[simp] theorem wholeless_circle {r : α} (hfill : Storyboard.Wholeless ("fill", fill))
    (hstroke : Storyboard.Wholeless ("stroke", stroke))
    (hextra : ∀ field ∈ extra, Storyboard.Wholeless field) :
    (circle id x y r fill stroke strokeWidth extra).Wholeless :=
  wholeless_setAll (by simp [strokeFields, hfill, hstroke]) hextra

@[simp] theorem wholeless_path {d : String} (hfill : Storyboard.Wholeless ("fill", fill))
    (hstroke : Storyboard.Wholeless ("stroke", stroke))
    (hextra : ∀ field ∈ extra, Storyboard.Wholeless field) :
    (path id x y d fill stroke strokeWidth extra).Wholeless :=
  wholeless_setAll (by simp [strokeFields, hfill, hstroke])
    fun field hfield => hextra field (List.mem_filter.1 hfield).1

omit [Scalar α] in
@[simp] theorem wholeless_text_element {content : String} {fontSize : α}
    (hfill : Storyboard.Wholeless ("fill", fill))
    (hextra : ∀ field ∈ extra, Storyboard.Wholeless field) :
    (text id x y content fontSize fill extra).Wholeless :=
  wholeless_setAll (by simp [hfill]) hextra

@[simp] theorem wholeless_group {parent : Parent}
    (hextra : ∀ field ∈ extra, Storyboard.Wholeless field) :
    (group id x y parent extra).Wholeless :=
  wholeless_setAll (by simp) hextra

omit [Scalar α] in
@[simp] theorem wholeless_image {href : Option String}
    (hextra : ∀ field ∈ extra, Storyboard.Wholeless field) :
    (image id x y width height href extra).Wholeless := by
  refine wholeless_setAll ?_ hextra
  cases href with
  | none => simp
  | some h => by_cases hempty : h = "" <;> simp [hempty]

end

end Action

/-- No action has a whole number. -/
def AllWholeless (as : List (Action α)) : Prop := ∀ a ∈ as, a.Wholeless

@[simp] theorem allWholeless_nil : AllWholeless ([] : List (Action α)) := List.forall_mem_nil _

@[simp] theorem allWholeless_cons {a : Action α} {as : List (Action α)} :
    AllWholeless (a :: as) ↔ a.Wholeless ∧ AllWholeless as :=
  List.forall_mem_cons

@[simp] theorem allWholeless_append {as bs : List (Action α)} :
    AllWholeless (as ++ bs) ↔ AllWholeless as ∧ AllWholeless bs :=
  List.forall_mem_append

@[simp] theorem allWholeless_flatMap {β : Type} {bs : List β} {f : β → List (Action α)} :
    AllWholeless (bs.flatMap f) ↔ ∀ b ∈ bs, AllWholeless (f b) :=
  List.forall_mem_flatMap

@[simp] theorem allWholeless_map_under {parent : String} {as : List (Action α)} :
    AllWholeless (as.map (under parent)) ↔ AllWholeless as := by
  simp [AllWholeless]

@[simp] theorem allWholeless_ite_nil {c : Prop} [Decidable c] {as : List (Action α)}
    (h : AllWholeless as) : AllWholeless (if c then as else []) :=
  fun a ha => h a (List.mem_ite_nil_right.1 ha).2

/-! ## Generators -/

variable [Scalar α]

section

variable {p : Plan α}

@[simp] theorem Plan.wholeless_background (name id : String) (angle : α) :
    Wholeless (name, p.background id angle) := by
  unfold background backgroundIn
  split
  · exact wholeless_object _ _
  · exact wholeless_text _ _

@[simp] theorem Plan.wholeless_accent (name id : String) : Wholeless (name, p.accent id) := by
  unfold accent accentIn
  split
  · exact wholeless_object _ _
  · exact wholeless_text _ _

omit [Scalar α] in
@[simp] theorem Plan.wholeless_colour (name : String) (index : Nat) (default : String) :
    Wholeless (name, p.colour index default) :=
  wholeless_text _ _

end

namespace Scene

theorem wholeless_of_builder? {archetype : Archetype} {make : Plan α → Nat → Draft α}
    (hmake : builder? archetype = some make) (p : Plan α) (n : Nat) :
    AllWholeless (make p n).actions := by
  cases archetype <;>
    simp only [builder?, Option.some.injEq, reduceCtorEq] at hmake <;> subst hmake
  case sunset => simp [sunset, inGroup]
  case ocean => simp [ocean, inGroup]
  case city => simp [city, house, inGroup]
  case forest => simp [forest, tree, inGroup]
  case mountain => simp [mountain, driftingCloud, inGroup]
  case desert => simp [desert, inGroup]
  case space => simp [space, star, inGroup]
  case neonStudio => simp [neonStudio, strip, inGroup]
  case meadow => simp [meadow, inGroup]
  case genericScene => simp [generic, inGroup]

end Scene

theorem Motion.wholeless_keyframes (m : Motion) (rig : Rig α) (b : Beats α) :
    AllWholeless (m.keyframes rig b) := by
  have hidle : AllWholeless (idling rig b) := by
    unfold idling
    split <;> simp
  have hwave : AllWholeless (waving rig b) := by
    unfold waving
    split <;> simp
  cases m with
  | idle => exact hidle
  | wave => exact hwave
  | waveAndIdle => exact allWholeless_append.2 ⟨hwave, hidle⟩
  | walk =>
      simp only [keyframes, walking]
      split
      · split <;> simp [swing]
      · simp
  | bounce => simp [keyframes, bouncing]
  | spin => simp [keyframes, spinning]
  | pulse => simp [keyframes, pulsing]

theorem Rig.wholeless_animated (p : Plan α) (n : Nat) : AllWholeless (animated p n).actions := by
  have hshapes : AllWholeless (shapes p n) := by
    unfold shapes
    cases buildOf p <;> simp
  have hmotion : AllWholeless (Motion.ofRig p.motion (ofPlan p n) p.beats) := by
    unfold Motion.ofRig
    split
    · exact Motion.wholeless_keyframes .idle _ _
    · exact Motion.wholeless_keyframes _ _ _
  simp [animated, draft, hshapes, hmotion]

theorem Shape.wholeless_build (p : Plan α) (n : Nat) : AllWholeless (build p n).actions := by
  have helement : (element p (Placeholder.id (n + 1))).Wholeless := by
    unfold element
    dsimp only
    split <;> cases p.mentions .animate <;> simp
  simp [build, drawing, helement]

theorem Photo.wholeless_build (p : Plan α) (n : Nat) : AllWholeless (build p n).actions := by
  have hplace : ∀ (t : PhotoTarget α) (n : Nat), AllWholeless (place p t n).2.1 := by
    intro t n
    unfold place
    split <;> simp
  unfold build
  split
  · have hbackdrop := hplace (target p 0.75)
    unfold layers
    dsimp only
    split <;> split <;> simp [hbackdrop]
  · have hplaced := hplace (target p 0.7)
    unfold pan
    dsimp only
    split <;> split <;> simp [hplaced]

theorem Animation.wholeless_keyframes (m : Animation) (id : String) (d : α) (f : Features α)
    (base : α × α) (goal : Option (α × α)) : AllWholeless (m.keyframes id d f base goal) := by
  have hmoving : AllWholeless (moving id d f base goal) := by
    unfold moving
    split
    · simp
    · refine allWholeless_append.2 ⟨by simp, ?_⟩
      split
      · simp
      · split <;> simp
  simp [keyframes, hmoving]

namespace Edit

variable {p : Plan α}

theorem wholeless_changes (e : Element α) : ∀ field ∈ changes p e, Wholeless field := by
  have hextent : ∀ extent : Extent α, ∀ field ∈ extent.toFields, Wholeless field := by
    intro extent field hfield
    obtain ⟨⟨name, x?⟩, -, h⟩ := List.mem_filterMap.1 hfield
    obtain ⟨x, -, rfl⟩ := Option.map_eq_some_iff.1 h
    exact wholeless_real name x
  simp only [changes, List.forall_mem_append]
  refine ⟨⟨⟨⟨⟨?_, ?_⟩, ?_⟩, ?_⟩, ?_⟩, ?_⟩
  · split <;> simp
  · split
    · split <;> simp
    · simp
  · split <;> simp
  · split
    · simp
    · split <;> simp
  · unfold measures
    dsimp only
    split
    · exact hextent _
    · split
      · exact hextent _
      · simp
  · split
    · split <;> simp
    · simp

omit [Scalar α] in
theorem wholeless_update? {id : String} {props : Fields α}
    (h : ∀ field ∈ props, Wholeless field) : AllWholeless (update? id props) := by
  unfold update?
  split
  · simp
  · exact allWholeless_cons.2 ⟨h, allWholeless_nil⟩

omit [Scalar α] in
theorem wholeless_repaint (f : Features α) : AllWholeless (repaint f).1 := by
  unfold repaint
  split
  · split <;> simp [Action.Wholeless, Value.isContainer]
  · simp

theorem wholeless_changeAll (p : Plan α) : AllWholeless (changeAll p) :=
  allWholeless_flatMap.2 fun e _ => allWholeless_append.2
    ⟨wholeless_update? (wholeless_changes e), Animation.wholeless_keyframes _ _ _ _ _ _⟩

theorem wholeless_change (e : Element α) : AllWholeless (change p e).1 := by
  refine allWholeless_append.2 ⟨wholeless_update? ?_, Animation.wholeless_keyframes _ _ _ _ _ _⟩
  refine List.forall_mem_append.2 ⟨wholeless_changes e, ?_⟩
  split <;> simp

theorem wholeless_fresh (id : String) (index : Nat) : (fresh p id index).1.Wholeless := by
  have hextras : ∀ field ∈ extras p.features, Wholeless field := by
    unfold extras
    split <;> simp
  unfold fresh
  dsimp only
  split
  · exact wholeless_circle (by simp) (by simp) hextras
  · exact wholeless_rect (by simp) (by simp) hextras
  · exact wholeless_text_element (by simp) hextras

theorem wholeless_create (n : Nat) : AllWholeless (create p n).1 :=
  allWholeless_flatMap.2 fun index _ => allWholeless_cons.2
    ⟨wholeless_fresh _ index, Animation.wholeless_keyframes _ _ _ _ _ _⟩

theorem wholeless_of_build {n : Nat} {d : Draft α} (hd : build p n = .ok d) :
    AllWholeless d.actions := by
  rcases build_cases hd with hall | rfl | ⟨e, -, rfl⟩
  · simp only [forAll?, Option.ite_none_right_eq_some, Option.some.injEq] at hall
    rw [← hall.2]
    exact allWholeless_append.2 ⟨wholeless_repaint _, wholeless_changeAll p⟩
  · exact allWholeless_append.2 ⟨wholeless_repaint _, wholeless_create n⟩
  · exact allWholeless_append.2 ⟨wholeless_repaint _, wholeless_change e⟩

end Edit

theorem Weather.wholeless_overlay (p : Plan α) (n : Nat) (parent : Option String)
    (origin : α × α) : AllWholeless (overlay p n parent origin) := by
  unfold overlay
  dsimp only
  split <;> simp [drop, flake]

theorem Camera.wholeless_motion (p : Plan α) (anchor : String) (origin : α × α) :
    AllWholeless (motion p anchor origin) := by
  simp [motion]

end Storyboard
