import Storyboard.Proofs.Composition.Carriage
import Storyboard.Proofs.Gate.Projection
/-!
# Values in finite numbers

A value is in finite numbers when each part of it is.  Moving on changes texts only, placing an
element under a parent adds a text, and the gate replaces numbers by ends of ranges, so all of them
keep values in finite numbers.
-/

namespace Storyboard

namespace Value

variable {α : Type} [Scalar α]

theorem areFinite_iff {items : List (Value α)} :
    areFinite items = true ↔ ∀ v ∈ items, v.isFinite = true := by
  induction items with
  | nil => simp [areFinite]
  | cons v rest ih => rw [areFinite, Bool.and_eq_true, ih, List.forall_mem_cons]

theorem haveFinite_iff {fields : Fields α} :
    haveFinite fields = true ↔ ∀ field ∈ fields, field.2.isFinite = true := by
  induction fields with
  | nil => simp [haveFinite]
  | cons head rest ih =>
    obtain ⟨name, v⟩ := head
    rw [haveFinite, Bool.and_eq_true, ih, List.forall_mem_cons]

@[simp] theorem isFinite_list_iff {items : List (Value α)} :
    (list items).isFinite = true ↔ ∀ v ∈ items, v.isFinite = true := by
  rw [isFinite, areFinite_iff]

@[simp] theorem isFinite_object_iff {fields : Fields α} :
    (object fields).isFinite = true ↔ ∀ field ∈ fields, field.2.isFinite = true := by
  rw [isFinite, haveFinite_iff]

@[simp] theorem isFinite_real (x : α) : (real x).isFinite = Scalar.isFinite x := by
  rw [isFinite]

@[simp] theorem isFinite_text (s : String) : (text s : Value α).isFinite = true := by
  simp [isFinite]

@[simp] theorem isFinite_null : (null : Value α).isFinite = true := by
  simp [isFinite]

theorem isFinite_of_get? {fields : Fields α} {name : String} {v : Value α}
    (h : (object fields).isFinite = true) (hv : Fields.get? fields name = some v) :
    v.isFinite = true :=
  isFinite_object_iff.1 h _ (Fields.mem_of_get? hv)

theorem isFinite_set {fields : Fields α} {v : Value α} (name : String)
    (h : (object fields).isFinite = true) (hv : v.isFinite = true) :
    (object (Fields.set fields name v)).isFinite = true := by
  rw [isFinite_object_iff] at h ⊢
  intro field hfield
  rcases Fields.eq_or_mem_of_mem_set hfield with rfl | hmem
  · exact hv
  · exact h field hmem

end Value

open Value

/-! ## Moving on and placing -/

namespace Placeholder

variable {α : Type} [Scalar α]

mutual

theorem isFinite_raised (k : Nat) (v : Value α) : (raised k v).isFinite = v.isFinite := by
  cases v with
  | list items => exact areFinite_raisedItems k items
  | object fields => exact haveFinite_raisedFields k fields
  | _ => rfl

theorem areFinite_raisedItems (k : Nat) (items : List (Value α)) :
    areFinite (raisedItems k items) = areFinite items := by
  cases items with
  | nil => rfl
  | cons v rest =>
    rw [raisedItems, areFinite, areFinite, isFinite_raised k v, areFinite_raisedItems k rest]

theorem haveFinite_raisedFields (k : Nat) (fields : List (String × Value α)) :
    haveFinite (raisedFields k fields) = haveFinite fields := by
  cases fields with
  | nil => rfl
  | cons head rest =>
    obtain ⟨name, v⟩ := head
    rw [raisedFields, haveFinite, haveFinite, isFinite_raised k v, haveFinite_raisedFields k rest]

end

end Placeholder

namespace Composition

variable {α : Type} [Scalar α]

theorem isFinite_placeUnder {parent : String} {a : Value α} (h : a.isFinite = true) :
    (placeUnder (some parent) a).isFinite = true := by
  unfold placeUnder
  split
  · split
    · rename_i payload hpayload
      exact isFinite_set _ h (isFinite_set _ (isFinite_of_get? h hpayload) (isFinite_text parent))
    · exact h
  · exact h

theorem portable_isFinite : Portable fun a : Value α => a.isFinite = true where
  raised k a h := (Placeholder.isFinite_raised k a).trans h
  placed _ _ _ _ h := isFinite_placeUnder h

end Composition

/-! ## The gate -/

namespace Gate

theorem isFinite_of_toRat? {e : Float} {p : Rat} (h : Scalar.toRat? e = some p) :
    (Value.real e).isFinite = true :=
  Option.isSome_iff_exists.2 ⟨p, h⟩

theorem isFinite_of_clamped {name : String} {v w : Value Float} (h : Clamped name v w)
    (hv : v.isFinite = true) : w.isFinite = true := by
  cases h with
  | kept => exact hv
  | lifted _ _ hq =>
    obtain ⟨p, hp, -⟩ := hq
    exact isFinite_of_toRat? hp
  | capped _ _ _ hq =>
    obtain ⟨p, hp, -⟩ := hq
    exact isFinite_of_toRat? hp

theorem isFinite_of_clampedFields {props clamped : Fields Float} (h : ClampedFields props clamped)
    (hprops : (object props).isFinite = true) : (object clamped).isFinite = true := by
  rw [isFinite_object_iff] at hprops ⊢
  induction h with
  | nil => exact hprops
  | cons hhead _ ih =>
    obtain ⟨hold, hrest⟩ := List.forall_mem_cons.1 hprops
    exact List.forall_mem_cons.2 ⟨isFinite_of_clamped hhead.2 hold, ih hrest⟩

theorem isFinite_of_clampedPayload {name : ActionName} {payload passed : Value Float}
    (h : ClampedPayload name payload passed) (hpayload : payload.isFinite = true) :
    passed.isFinite = true := by
  cases h with
  | props _ hprops hclamped =>
    exact isFinite_set _ hpayload
      (isFinite_of_clampedFields hclamped (isFinite_of_get? hpayload hprops))
  | value _ hvalue hclamped =>
    exact isFinite_set _ hpayload (isFinite_of_clamped hclamped (isFinite_of_get? hpayload hvalue))
  | same => exact hpayload

/-- What passes is in finite numbers when it was before. -/
theorem isFinite_of_pass {a b : Value Float} (h : pass a = .ok (some b))
    (ha : a.isFinite = true) : b.isFinite = true := by
  obtain ⟨-, hpayload, hclamped⟩ := clampedAction_of_pass h
  exact isFinite_set _ ha (isFinite_of_clampedPayload hclamped (isFinite_of_get? ha hpayload))

end Gate

end Storyboard
