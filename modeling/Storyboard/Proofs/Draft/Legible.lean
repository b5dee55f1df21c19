import Storyboard.Proofs.Draft.RenumberingCanvas
import Storyboard.Proofs.Prompt.Digits
/-!
# Edits whose placeholders can be read

An edit names elements of the canvas and shows words of the prompt.  As long as the rows of digits
in these are short, every placeholder in the edit can be read.
-/

namespace Storyboard

open Placeholder (Readable runs fieldRuns itemRuns textRuns textRuns_of_not_mem_brace)
open Storyboard.Action
open Text (ShortRuns)

variable {α : Type}

/-- No row of digits in a request is too long to be read as a number. -/
structure Request.Legible (r : Request α) : Prop where
  prompt : ShortRuns r.prompt.toList
  ids : ∀ e ∈ r.selected.toList ++ r.existing, ShortRuns e.id.toList

/-- The placeholders that a plan takes over from its request can be read. -/
structure Plan.Legible (p : Plan α) : Prop where
  ids : ∀ e ∈ p.selected.toList ++ p.existing, Readable (textRuns e.id)
  colour : ∀ c, p.features.colour = some c → textRuns c = []
  content : ∀ s, p.features.content = some s → Readable (textRuns s)

theorem Plan.legible_of_ofRequest [Scalar α] {settings : Settings α} {r : Request α} {p : Plan α}
    (hr : r.Legible) (h : Plan.ofRequest settings r = .ok p) : p.Legible := by
  obtain ⟨f, hf, rfl⟩ := map_eq_ok_iff.1 h
  refine ⟨fun e he => ?_, fun c hc => ?_, fun s hs => ?_⟩
  · exact Placeholder.readable_of_shortRuns (hr.ids e he)
  · exact Features.textRuns_colour hf hc
  · exact Placeholder.readable_of_shortRuns (Features.shortRuns_content hr.prompt hf hs)

/-! ## Actions -/

theorem Placeholder.readable_fieldRuns_iff {fields : Fields α} :
    Readable (fieldRuns fields) ↔ ∀ field ∈ fields, Readable (runs field.2) := by
  induction fields with
  | nil => simp [fieldRuns]
  | cons field rest ih =>
      obtain ⟨name, v⟩ := field
      rw [fieldRuns, readable_append, ih, List.forall_mem_cons]

theorem Placeholder.readable_itemRuns_iff {items : List (Value α)} :
    Readable (itemRuns items) ↔ ∀ v ∈ items, Readable (runs v) := by
  induction items with
  | nil => simp [itemRuns]
  | cons v rest ih => rw [itemRuns, readable_append, ih, List.forall_mem_cons]

/-- The placeholders in a property can be read. -/
def Legible (field : String × Value α) : Prop := Readable (runs field.2)

@[simp] theorem legible_real (name : String) (x : α) : Legible (name, .real x) :=
  Placeholder.readable_nil

@[simp] theorem legible_text {name s : String} :
    Legible (α := α) (name, .text s) ↔ Readable (textRuns s) :=
  Iff.rfl

theorem legible_plain {name s : String} (h : '\x7b' ∉ s.toList) :
    Legible (α := α) (name, .text s) := by
  rw [legible_text, textRuns_of_not_mem_brace h]
  exact Placeholder.readable_nil

theorem legible_setAll {fields others : Fields α} (h : ∀ field ∈ fields, Legible field)
    (h' : ∀ field ∈ others, Legible field) :
    ∀ field ∈ Fields.setAll fields others, Legible field :=
  fun _ hfield => (Fields.mem_or_mem_of_mem_setAll hfield).elim (h _) (h' _)

namespace Action

/-- The placeholders in an action can be read. -/
def Legible (a : Action α) : Prop := Readable (runs a.toValue)

theorem legible_wire {name : ActionName} {payload : Fields α} :
    Readable (runs (wire name (.object payload))) ↔
      ∀ field ∈ payload, Storyboard.Legible field := by
  have hname : textRuns name.text = [] := textRuns_of_not_mem_brace (by cases name <;> decide)
  simp only [wire, runs, fieldRuns, hname, List.nil_append, List.append_nil]
  exact Placeholder.readable_fieldRuns_iff

theorem legible_object {name : String} {fields : Fields α} :
    Storyboard.Legible (name, .object fields) ↔ ∀ field ∈ fields, Storyboard.Legible field :=
  Placeholder.readable_fieldRuns_iff

theorem legible_add_iff {kind : ElementKind} {id : String} {props : Fields α} :
    (add kind id props .unstated).Legible ↔
      Readable (textRuns id) ∧ ∀ field ∈ props, Storyboard.Legible field := by
  have hkind : Storyboard.Legible (α := α) ("type", .text kind.name) :=
    legible_plain (by cases kind <;> decide)
  rw [Legible, toValue, legible_wire]
  simp [Parent.toFields, hkind, legible_object]

theorem legible_update_iff {id : String} {props : Fields α} :
    (update id props).Legible ↔
      Readable (textRuns id) ∧ ∀ field ∈ props, Storyboard.Legible field := by
  rw [Legible, toValue, legible_wire]
  simp [legible_object]

theorem legible_board_iff {props : Fields α} :
    (board props).Legible ↔ ∀ field ∈ props, Storyboard.Legible field :=
  legible_wire

@[simp] theorem legible_key {id property easing : String} {time value : α}
    (hid : Readable (textRuns id)) (hproperty : '\x7b' ∉ property.toList)
    (heasing : '\x7b' ∉ easing.toList) : (key id property time value easing).Legible := by
  unfold Legible key frame toValue
  rw [legible_wire]
  unfold keyframePayload
  refine List.forall_mem_append.2 ⟨?_, ?_⟩
  · simp [hid, textRuns_of_not_mem_brace hproperty]
  · by_cases hnone : easing = "" <;> simp [hnone, textRuns_of_not_mem_brace heasing]

end Action

/-- The placeholders in all actions can be read. -/
def AllLegible (as : List (Action α)) : Prop := ∀ a ∈ as, a.Legible

@[simp] theorem allLegible_nil : AllLegible ([] : List (Action α)) := List.forall_mem_nil _

@[simp] theorem allLegible_cons {a : Action α} {as : List (Action α)} :
    AllLegible (a :: as) ↔ a.Legible ∧ AllLegible as :=
  List.forall_mem_cons

@[simp] theorem allLegible_append {as bs : List (Action α)} :
    AllLegible (as ++ bs) ↔ AllLegible as ∧ AllLegible bs :=
  List.forall_mem_append

@[simp] theorem allLegible_ite_nil {c : Prop} [Decidable c] {as : List (Action α)}
    (h : AllLegible as) : AllLegible (if c then as else []) :=
  fun a ha => h a (List.mem_ite_nil_right.1 ha).2

theorem AllLegible.readable {as : List (Action α)} (h : AllLegible as) :
    Readable (itemRuns (as.map toValue)) :=
  Placeholder.readable_itemRuns_iff.2 (List.forall_mem_map.2 h)

/-! ## Edits -/

variable [Scalar α]

theorem Animation.legible_keyframes {m : Animation} {id : String} (hid : Readable (textRuns id))
    (d : α) (f : Features α) (base : α × α) (goal : Option (α × α)) :
    AllLegible (m.keyframes id d f base goal) := by
  have hmoving : AllLegible (moving id d f base goal) := by
    unfold moving
    split
    · simp [hid]
    · refine allLegible_append.2 ⟨by simp [hid], ?_⟩
      split
      · simp [hid]
      · split <;> simp [hid]
  simp [keyframes, hmoving, hid]

namespace Edit

variable {p : Plan α}

omit [Scalar α] in
theorem legible_extent (extent : Extent α) : ∀ field ∈ extent.toFields, Legible field := by
  intro field hfield
  obtain ⟨⟨name, x?⟩, -, h⟩ := List.mem_filterMap.1 hfield
  obtain ⟨x, -, rfl⟩ := Option.map_eq_some_iff.1 h
  exact legible_real name x

omit [Scalar α] in
theorem readable_content? (hp : p.Legible) {s : String} (h : content? p.features = some s) :
    Readable (textRuns s) :=
  hp.content s (Option.filter_eq_some_iff.1 h).1

theorem legible_changes (hp : p.Legible) (e : Element α) :
    ∀ field ∈ changes p e, Legible field := by
  simp only [changes, List.forall_mem_append]
  refine ⟨⟨⟨⟨⟨?_, ?_⟩, ?_⟩, ?_⟩, ?_⟩, ?_⟩
  · split
    · rename_i c hc
      simp [hp.colour c hc]
    · simp
  · split
    · split <;> simp
    · simp
  · split <;> simp
  · split
    · simp
    · split <;> simp
  · unfold measures
    dsimp only
    split
    · exact legible_extent _
    · split
      · exact legible_extent _
      · simp
  · split
    · rename_i s hs
      split <;> simp [readable_content? hp hs]
    · simp

omit [Scalar α] in
theorem legible_update? {id : String} {props : Fields α} (hid : Readable (textRuns id))
    (hprops : ∀ field ∈ props, Legible field) : AllLegible (update? id props) := by
  unfold update?
  split
  · exact allLegible_nil
  · exact allLegible_cons.2 ⟨legible_update_iff.2 ⟨hid, hprops⟩, allLegible_nil⟩

omit [Scalar α] in
theorem legible_repaint (hp : p.Legible) : AllLegible (repaint p.features).1 := by
  unfold repaint
  split
  · rename_i c hc
    split <;> simp [legible_board_iff, hp.colour c hc]
  · simp

theorem legible_changeAll (hp : p.Legible) : AllLegible (changeAll p) := by
  refine List.forall_mem_flatMap.2 fun e he => ?_
  have hid := hp.ids e (List.mem_append_right _ he)
  exact allLegible_append.2
    ⟨legible_update? hid (legible_changes hp e), Animation.legible_keyframes hid _ _ _ _⟩

theorem legible_change (hp : p.Legible) {e : Element α}
    (he : e ∈ p.selected.toList ++ p.existing) : AllLegible (change p e).1 := by
  have hid := hp.ids e he
  refine allLegible_append.2 ⟨legible_update? hid ?_, Animation.legible_keyframes hid _ _ _ _⟩
  refine List.forall_mem_append.2 ⟨legible_changes hp e, ?_⟩
  split <;> simp

theorem legible_fresh (hp : p.Legible) {id : String} (hid : Readable (textRuns id))
    (index : Nat) : (fresh p id index).1.Legible := by
  have hfill := textRuns_fill hp.colour index
  have hstroke := textRuns_stroke hp.colour
  have hextras : ∀ field ∈ extras p.features, Legible field := by
    unfold extras
    split <;> simp
  have hwords : Readable (textRuns ((content? p.features).getD "Vector Maestro")) := by
    cases hcontent : content? p.features with
    | some s => exact readable_content? hp hcontent
    | none =>
        rw [Option.getD_none, Placeholder.textRuns_of_not_mem_brace (by simp)]
        exact Placeholder.readable_nil
  unfold fresh
  dsimp only
  split
  · exact legible_add_iff.2 ⟨hid, legible_setAll (by simp [strokeFields, hfill, hstroke]) hextras⟩
  · exact legible_add_iff.2 ⟨hid, legible_setAll (by simp [strokeFields, hfill, hstroke]) hextras⟩
  · refine legible_add_iff.2 ⟨hid, legible_setAll ?_ hextras⟩
    have hanchor : Legible (α := α) ("textAnchor", .text "middle") := legible_plain (by simp)
    simp [hfill, hwords, hanchor]

theorem legible_create (hp : p.Legible) {n : Nat}
    (hroom : n + p.features.count < Placeholder.ceiling) : AllLegible (create p n).1 := by
  refine List.forall_mem_flatMap.2 fun index hindex => ?_
  have hid : Readable (textRuns (Placeholder.id (n + 1 + index))) := by
    have hcount := List.mem_range.1 hindex
    rw [Placeholder.textRuns_id, Placeholder.readable_cons]
    exact ⟨Placeholder.length_digits_le (by omega), Placeholder.readable_nil⟩
  exact allLegible_cons.2 ⟨legible_fresh hp hid index, Animation.legible_keyframes hid _ _ _ _⟩

/-- Every placeholder in an edit of a legible plan can be read. -/
theorem legible_of_build (hp : p.Legible) {n : Nat}
    (hroom : n + p.features.count < Placeholder.ceiling) {d : Draft α}
    (hd : build p n = .ok d) : AllLegible d.actions := by
  rcases build_cases hd with hall | rfl | ⟨e, he, rfl⟩
  · simp only [forAll?, Option.ite_none_right_eq_some, Option.some.injEq] at hall
    rw [← hall.2]
    exact allLegible_append.2 ⟨legible_repaint hp, legible_changeAll hp⟩
  · exact allLegible_append.2 ⟨legible_repaint hp, legible_create hp hroom⟩
  · exact allLegible_append.2 ⟨legible_repaint hp, legible_change hp he⟩

end Edit

end Storyboard
