import Storyboard.Proofs.Binary.Size
import Storyboard.Proofs.Gate.Sequence
/-!
# Actions that fit through the gate

An action of the compiler fits when its element has a name, its properties are in their ranges and,
for a keyframe, the property can be moved and the time can be set.  Actions that fit pass the gate
as they are.
-/

namespace Storyboard

open Gate (bounds? clampProperty clampFields isNamed animatable Steady)

/-! ## Properties in their ranges -/

/-- The number is not beyond the range of the property. -/
def Within (name : String) (x : Float) : Prop :=
  (bounds? name).all (fun b => (b.beyond? x).isNone) = true

instance (name : String) (x : Float) : Decidable (Within name x) :=
  inferInstanceAs (Decidable (_ = true))

/-- Most properties have no range. -/
@[simp] theorem within_of_unbounded {name : String} {x : Float}
    (h : name ∉ "scale" :: "strokeWidth" :: "fontSize" :: Gate.shares) : Within name x := by
  simp only [List.mem_cons, not_or] at h
  have hnone : (bounds? name : Option (Bounds Float)) = none := by
    simp [bounds?, h]
  rw [Within, hnone]
  rfl

theorem within_of_bounds {name : String} {x : Float} {b : Bounds Float}
    (h : bounds? name = some b) (hlow : ¬ x < b.low) (hhigh : ∀ high ∈ b.high, ¬ high < x) :
    Within name x := by
  rw [Within, h, Option.all_some, Bounds.beyond?, if_neg hlow]
  cases hb : b.high with
  | none => rfl
  | some high => simp [hhigh high hb]

/-- The gate leaves the property as it is. -/
def InPlace (field : String × Value Float) : Prop :=
  clampProperty field.1 field.2 = .ok field.2

@[simp] theorem inPlace_real {name : String} {x : Float} (h : Within name x) :
    InPlace (name, .real x) := by
  unfold Within at h
  unfold InPlace clampProperty
  by_cases hfinite : Scalar.isFinite x = true
  · simp only [Value.finite?, hfinite, if_true, map_ok]
    cases hb : (bounds? name : Option (Bounds Float)) with
    | none => rfl
    | some b =>
        rw [hb, Option.all_some, Option.isNone_iff_eq_none] at h
        simp [h]
  · simp [Value.finite?, hfinite]

@[simp] theorem inPlace_text (name s : String) : InPlace (name, .text s) :=
  rfl

@[simp] theorem inPlace_null (name : String) : InPlace (name, .null) :=
  rfl

@[simp] theorem inPlace_object (name : String) (fields : Fields Float) : InPlace (name, .object fields) :=
  rfl

theorem clampFields_eq_self_iff {props : Fields Float} :
    clampFields props = .ok props ↔ ∀ field ∈ props, InPlace field := by
  induction props with
  | nil => simp [clampFields]
  | cons head rest ih =>
      obtain ⟨name, value⟩ := head
      rw [List.forall_mem_cons, ← ih]
      simp only [clampFields, bind_eq_ok_iff, pure_eq_ok, Except.ok.injEq, List.cons.injEq,
        Prod.mk.injEq, true_and, InPlace]
      constructor
      · rintro ⟨v, hv, vs, hvs, rfl, rfl⟩
        exact ⟨hv, hvs⟩
      · rintro ⟨hv, hvs⟩
        exact ⟨_, hv, _, hvs, rfl, rfl⟩

theorem inPlace_setAll {fields others : Fields Float} (h : ∀ field ∈ fields, InPlace field)
    (h' : ∀ field ∈ others, InPlace field) :
    ∀ field ∈ Fields.setAll fields others, InPlace field := by
  intro field hfield
  rcases Fields.mem_or_mem_of_mem_setAll hfield with hmem | hmem
  · exact h field hmem
  · exact h' field hmem

/-! ## Actions -/

/-- The time is finite and not negative. -/
def Settable (t : Float) : Prop := Scalar.isFinite t = true ∧ ¬ t < 0.0

def Named (id : String) : Prop := isNamed (some (.text id : Value Float)) = true

namespace Action

/-- The gate has nothing to change about the action. -/
def Fits : Action Float → Prop
  | add _ id props _ => Named id ∧ ∀ field ∈ props, InPlace field
  | update id props => Named id ∧ ∀ field ∈ props, InPlace field
  | board _ => True
  | keyframe k =>
    Named k.element ∧ k.property ∈ animatable ∧ Settable k.time ∧ InPlace (k.property, k.value)

theorem steady_of_fits {a : Action Float} (h : a.Fits) : Steady a.toValue := by
  cases a with
  | add kind id props parent =>
      rw [Steady, Gate.pass_add h.1, clampFields_eq_self_iff.2 h.2]
      rfl
  | update id props =>
      rw [Steady, Gate.pass_update h.1, clampFields_eq_self_iff.2 h.2]
      rfl
  | board props => exact Gate.pass_board props
  | keyframe k =>
      obtain ⟨hid, hproperty, ⟨hfinite, htime⟩, hvalue⟩ := h
      have hvalue' : clampProperty k.property k.value = .ok k.value := hvalue
      rw [Steady, Gate.pass_keyframe hid hproperty hfinite htime, hvalue']
      rfl

/-! ## How actions are made -/

@[simp] theorem fits_under {parent : String} {a : Action Float} :
    (under parent a).Fits ↔ a.Fits := by
  cases a <;> rfl

@[simp] theorem fits_key {id property easing : String} {time value : Float} :
    (key id property time value easing).Fits ↔
      Named id ∧ property ∈ animatable ∧ Settable time ∧ InPlace (property, .real value) :=
  Iff.rfl

section

variable {id : String} {x y width height : Float} {fill stroke : Value Float}
  {strokeWidth : Float} {extra : Fields Float}

@[simp] theorem fits_rect (hid : Named id) (hfill : InPlace ("fill", fill))
    (hstroke : InPlace ("stroke", stroke)) (hwidth : Within "strokeWidth" strokeWidth)
    (hextra : ∀ field ∈ extra, InPlace field) :
    (rect id x y width height fill stroke strokeWidth extra).Fits :=
  ⟨hid, inPlace_setAll (by simp [strokeFields, Gate.shares, hfill, hstroke, hwidth]) hextra⟩

@[simp] theorem fits_circle {r : Float} (hid : Named id) (hfill : InPlace ("fill", fill))
    (hstroke : InPlace ("stroke", stroke)) (hwidth : Within "strokeWidth" strokeWidth)
    (hextra : ∀ field ∈ extra, InPlace field) :
    (circle id x y r fill stroke strokeWidth extra).Fits :=
  ⟨hid, inPlace_setAll (by simp [strokeFields, Gate.shares, hfill, hstroke, hwidth]) hextra⟩

@[simp] theorem fits_path {d : String} (hid : Named id) (hfill : InPlace ("fill", fill))
    (hstroke : InPlace ("stroke", stroke)) (hwidth : Within "strokeWidth" strokeWidth)
    (hextra : ∀ field ∈ extra, InPlace field) :
    (path id x y d fill stroke strokeWidth extra).Fits :=
  ⟨hid, inPlace_setAll (by simp [strokeFields, Gate.shares, hfill, hstroke, hwidth])
    fun field hfield => hextra field (List.mem_filter.1 hfield).1⟩

@[simp] theorem fits_text {content : String} {fontSize : Float} (hid : Named id)
    (hsize : Within "fontSize" fontSize) (hfill : InPlace ("fill", fill))
    (hextra : ∀ field ∈ extra, InPlace field) :
    (text id x y content fontSize fill extra).Fits :=
  ⟨hid, inPlace_setAll (by simp [Gate.shares, hfill, hsize]) hextra⟩

@[simp] theorem fits_group {parent : Parent} (hid : Named id)
    (hextra : ∀ field ∈ extra, InPlace field) : (group id x y parent extra).Fits :=
  ⟨hid, inPlace_setAll (by simp [Gate.shares]) hextra⟩

@[simp] theorem fits_image {href : Option String} (hid : Named id)
    (hextra : ∀ field ∈ extra, InPlace field) :
    (image id x y width height href extra).Fits := by
  refine ⟨hid, inPlace_setAll ?_ hextra⟩
  cases href with
  | none => simp [Gate.shares]
  | some h => by_cases hempty : h = "" <;> simp [hempty, Gate.shares]

end

end Action

@[simp] theorem named_id (n : Nat) : Named (Placeholder.id n) :=
  Gate.isNamed_id n

end Storyboard
