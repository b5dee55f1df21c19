import Storyboard.Value
/-!
# Fields of objects

Reading fields back after they were given values.
-/

namespace Storyboard.Fields

variable {α : Type}

theorem set_of_get? {fields : Fields α} {name : String} {value : Value α}
    (h : get? fields name = some value) : set fields name value = fields := by
  induction fields with
  | nil => simp at h
  | cons head rest ih =>
      obtain ⟨key, old⟩ := head
      by_cases hkey : key = name
      · simp only [get?_cons, hkey, if_true, Option.some.injEq] at h
        simp [set, hkey, h]
      · simp only [get?_cons, hkey, if_false] at h
        simp [set, hkey, ih h]

theorem get?_set_self (fields : Fields α) (name : String) (value : Value α) :
    get? (set fields name value) name = some value := by
  rw [get?_set, if_pos rfl]

theorem set_eq_self_iff {fields : Fields α} {name : String} {value : Value α} :
    set fields name value = fields ↔ get? fields name = some value := by
  constructor
  · intro h
    rw [← h, get?_set_self]
  · exact set_of_get?

theorem get?_set_ne {fields : Fields α} {name other : String} {value : Value α}
    (h : name ≠ other) : get? (set fields name value) other = get? fields other := by
  rw [get?_set, if_neg h]

theorem mem_of_get? {fields : Fields α} {name : String} {value : Value α}
    (h : get? fields name = some value) : (name, value) ∈ fields := by
  induction fields with
  | nil => simp at h
  | cons head rest ih =>
      obtain ⟨key, old⟩ := head
      by_cases hkey : key = name
      · simp only [get?_cons, hkey, if_true, Option.some.injEq] at h
        simp [hkey, h]
      · simp only [get?_cons, hkey, if_false] at h
        exact List.mem_cons_of_mem _ (ih h)

theorem get?_append (fields others : Fields α) (name : String) :
    get? (fields ++ others) name = (get? fields name).or (get? others name) := by
  induction fields with
  | nil => rfl
  | cons head rest ih =>
      rw [List.cons_append, get?_cons, get?_cons, ih]
      split <;> rfl

theorem get?_eq_none {fields : Fields α} {name : String} (h : ∀ field ∈ fields, field.1 ≠ name) :
    get? fields name = none := by
  cases hfound : get? fields name with
  | none => rfl
  | some v => exact absurd rfl (h _ (mem_of_get? hfound))

/-- Giving a field that is there another value keeps the names and their order. -/
theorem names_set {fields : Fields α} {name : String} {old : Value α}
    (h : get? fields name = some old) (value : Value α) :
    (set fields name value).map Prod.fst = fields.map Prod.fst := by
  induction fields with
  | nil => simp at h
  | cons head rest ih =>
      obtain ⟨key, _⟩ := head
      by_cases hkey : key = name
      · simp [set, hkey]
      · simp only [get?_cons, hkey, if_false] at h
        simp [set, hkey, ih h]

theorem eq_or_mem_of_mem_set {fields : Fields α} {name : String} {value : Value α}
    {field : String × Value α} (h : field ∈ set fields name value) :
    field = (name, value) ∨ field ∈ fields := by
  induction fields with
  | nil => exact .inl (List.mem_singleton.1 h)
  | cons head rest ih =>
      obtain ⟨key, old⟩ := head
      by_cases hkey : key = name
      · simp only [set, hkey, if_true, List.mem_cons] at h
        exact h.imp id (List.mem_cons_of_mem _)
      · simp only [set, hkey, if_false, List.mem_cons] at h
        rcases h with rfl | h
        · exact .inr List.mem_cons_self
        · exact (ih h).imp id (List.mem_cons_of_mem _)

theorem mem_or_mem_of_mem_setAll {fields others : Fields α} {field : String × Value α}
    (h : field ∈ setAll fields others) : field ∈ fields ∨ field ∈ others := by
  induction others generalizing fields with
  | nil => exact .inl h
  | cons head rest ih =>
      rcases ih h with h | h
      · rcases eq_or_mem_of_mem_set h with rfl | h
        · exact .inr List.mem_cons_self
        · exact .inl h
      · exact .inr (List.mem_cons_of_mem _ h)

end Storyboard.Fields
