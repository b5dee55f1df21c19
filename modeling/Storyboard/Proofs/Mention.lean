import Storyboard.Composition
import Storyboard.Quality
import Storyboard.Proofs.Fields
import Storyboard.Proofs.Placeholder.Numbers
/-!
# What actions mention

The element that an action adds and those that it refers to, on the wire and as the compiler
writes them; and what becomes of them when placeholders are moved on or an element is placed under
a parent.  A sequence is closed over some ids when every reference is to one of them or to an
element that was added before.
-/

namespace Storyboard

open Quality (fieldOf objectIn payloadOf)
open Placeholder (raised raisedText)

variable {α : Type}

/-- The id that an action adds. -/
def addedId? (action : Value α) : Option String :=
  if ActionName.ofValue? action = some .addElement then
    (Fields.get? (objectIn (payloadOf action) "props") "id").bind Value.text?
  else none

/-- The ids that some actions add, in order. -/
def addedIds (actions : List (Value α)) : List String := actions.filterMap addedId?

/-- What an action refers to: the parent of a new element unless it is null, or the element that
it changes. -/
def references (action : Value α) : List (Value α) :=
  match ActionName.ofValue? action with
  | some .addElement =>
    if (fieldOf (payloadOf action) "targetParentId").kind = .null then []
    else [fieldOf (payloadOf action) "targetParentId"]
  | some .updateElement => [fieldOf (payloadOf action) "id"]
  | some .addKeyframe => [fieldOf (payloadOf action) "elementId"]
  | _ => []

/-- Every reference is to a known element or to one that was added before. -/
def Closed (known : List String) : List (Value α) → Prop
  | [] => True
  | a :: rest =>
    (∀ v ∈ references a, ∃ s ∈ known, v = .text s) ∧ Closed ((addedId? a).toList ++ known) rest

theorem get?_objectIn_eq_some_iff {fields : Fields α} {name key : String} {v : Value α} :
    Fields.get? (objectIn fields name) key = some v ↔
      ∃ inner, Fields.get? fields name = some (.object inner) ∧
        Fields.get? inner key = some v := by
  unfold objectIn
  cases Fields.get? fields name with
  | none => simp
  | some w => cases w <;> simp [Value.fields?]

theorem get?_payloadOf_eq_some_iff {a : Value α} {key : String} {v : Value α} :
    Fields.get? (payloadOf a) key = some v ↔
      ∃ payload, a.field? "payload" = some (.object payload) ∧
        Fields.get? payload key = some v := by
  unfold payloadOf
  cases a.field? "payload" with
  | none => simp
  | some w => cases w <;> simp [Value.fields?]

theorem payloadOf_eq {a : Value α} {payload : Fields α}
    (h : a.field? "payload" = some (.object payload)) : payloadOf a = payload := by
  rw [payloadOf, h]
  rfl

/-- An action adds an element when it has the name, and a payload with properties with an id. -/
theorem addedId?_eq_some_iff {a : Value α} {id : String} :
    addedId? a = some id ↔ ActionName.ofValue? a = some .addElement ∧
      ∃ payload, a.field? "payload" = some (.object payload) ∧
        ∃ props, Fields.get? payload "props" = some (.object props) ∧
          Fields.get? props "id" = some (.text id) := by
  have htext : ∀ v? : Option (Value α),
      v?.bind Value.text? = some id ↔ v? = some (.text id) := by
    intro v?
    rcases v? with _ | v
    · simp
    · cases v <;> simp [Value.text?]
  unfold addedId?
  split
  · rename_i hname
    rw [htext, get?_objectIn_eq_some_iff]
    simp only [hname, true_and]
    constructor
    · rintro ⟨props, hprops, hid⟩
      obtain ⟨payload, hpayload, hprops⟩ := get?_payloadOf_eq_some_iff.1 hprops
      exact ⟨payload, hpayload, props, hprops, hid⟩
    · rintro ⟨payload, hpayload, props, hprops, hid⟩
      exact ⟨props, get?_payloadOf_eq_some_iff.2 ⟨payload, hpayload, hprops⟩, hid⟩
  · rename_i hname
    simp [hname]

namespace Action

/-- The id that an action adds. -/
def added? : Action α → Option String
  | add _ id _ _ => some id
  | _ => none

/-- The ids that an action refers to. -/
def referred : Action α → List String
  | add _ _ _ (.of parent) => [parent]
  | update id _ => [id]
  | keyframe k => [k.element]
  | _ => []

end Action

/-! ## Actions as the compiler writes them -/

theorem ofText?_text (name : ActionName) : ActionName.ofText? name.text = some name := by
  cases name <;> rfl

@[simp] theorem ofValue?_wire (name : ActionName) (payload : Value α) :
    ActionName.ofValue? (Action.wire name payload) = some name :=
  ofText?_text name

@[simp] theorem payloadOf_wire (name : ActionName) (payload : Fields α) :
    payloadOf (Action.wire name (.object payload)) = payload := by
  simp [payloadOf, Action.wire, Value.field?, Value.fields?]

@[simp] theorem addedId?_toValue (a : Action α) : addedId? a.toValue = a.added? := by
  cases a <;>
    simp [addedId?, Action.toValue, Action.added?, objectIn, Value.fields?, Value.text?]

@[simp] theorem references_toValue (a : Action α) :
    references a.toValue = a.referred.map .text := by
  cases a with
  | add kind id props parent =>
      cases parent <;>
        simp [references, Action.toValue, Action.referred, fieldOf, Parent.toFields, Value.kind]
  | keyframe k =>
      simp [references, Action.toValue, Action.referred, fieldOf, Action.keyframePayload]
  | _ => simp [references, Action.toValue, Action.referred, fieldOf]

theorem addedIds_map_toValue (as : List (Action α)) :
    addedIds (as.map Action.toValue) = as.filterMap Action.added? := by
  rw [addedIds, List.filterMap_map]
  congr 1
  funext a
  exact addedId?_toValue a

theorem addedIds_append (as bs : List (Value α)) :
    addedIds (as ++ bs) = addedIds as ++ addedIds bs :=
  List.filterMap_append

namespace Action

@[simp] theorem added?_under (parent : String) (a : Action α) :
    (a.under parent).added? = a.added? := by
  cases a <;> rfl

@[simp] theorem added?_add (kind : ElementKind) (id : String) (props : Fields α)
    (parent : Parent) : (add kind id props parent).added? = some id :=
  rfl

@[simp] theorem referred_add_under (kind : ElementKind) (id : String) (props : Fields α)
    (old : Parent) (parent : String) :
    ((add kind id props old).under parent).referred = [parent] :=
  rfl

@[simp] theorem referred_add_unstated (kind : ElementKind) (id : String) (props : Fields α) :
    (add kind id props .unstated).referred = [] :=
  rfl

@[simp] theorem added?_key (element property : String) (time value : α) (easing : String) :
    (key element property time value easing).added? = none :=
  rfl

@[simp] theorem referred_key (element property : String) (time value : α) (easing : String) :
    (key element property time value easing).referred = [element] :=
  rfl

end Action

/-- Some actions add the next `count` elements after `n`, in order. -/
def Adds (n count : Nat) (as : List (Action α)) : Prop :=
  as.filterMap Action.added? = (List.range' (n + 1) count).map Placeholder.id

theorem adds_nil (n : Nat) : Adds n 0 ([] : List (Action α)) := rfl

theorem adds_cons {n count : Nat} {a : Action α} {as : List (Action α)}
    (ha : a.added? = some (Placeholder.id (n + 1))) (h : Adds (n + 1) count as) :
    Adds n (count + 1) (a :: as) := by
  unfold Adds at *
  rw [List.filterMap_cons_some ha, h, List.range'_succ, List.map_cons]

theorem adds_cons_none {n count : Nat} {a : Action α} {as : List (Action α)}
    (ha : a.added? = none) (h : Adds n count as) : Adds n count (a :: as) := by
  unfold Adds at *
  rw [List.filterMap_cons_none ha, h]

theorem adds_append {n j k : Nat} {as bs : List (Action α)} (has : Adds n j as)
    (hbs : Adds (n + j) k bs) : Adds n (j + k) (as ++ bs) := by
  unfold Adds at *
  rw [List.filterMap_append, has, hbs, ← List.map_append, Nat.add_right_comm,
    List.range'_append_1]

/-- Actions that add nothing after actions that add some. -/
theorem adds_of_none {n : Nat} {as : List (Action α)} (h : ∀ a ∈ as, a.added? = none) :
    Adds n 0 as := by
  unfold Adds
  simpa [List.filterMap_eq_nil_iff] using h

theorem adds_append_none {n count : Nat} {as bs : List (Action α)} (has : Adds n count as)
    (hbs : ∀ b ∈ bs, b.added? = none) : Adds n count (as ++ bs) :=
  adds_append has (adds_of_none hbs)

/-- Parts that add `width` elements each add all of them, one part after the other. -/
theorem adds_flatMap {n width : Nat} {f : Nat → List (Action α)}
    (h : ∀ i, Adds (n + width * i) width (f i)) (count : Nat) :
    Adds n (width * count) ((List.range count).flatMap f) := by
  induction count with
  | zero => exact adds_nil n
  | succ count ih =>
      rw [List.range_succ, List.flatMap_append, Nat.mul_succ]
      refine adds_append ih ?_
      simpa using h count

/-! ## Placeholders moved on -/

theorem ofText?_raisedText (k : Nat) (s : String) :
    ActionName.ofText? (raisedText k s) = ActionName.ofText? s := by
  unfold ActionName.ofText?
  congr 1
  funext name
  have hplain : '\x7b' ∉ name.text.toList := by cases name <;> decide
  have hsame : name.text = raisedText k s ↔ name.text = s := by
    rw [eq_comm, Placeholder.raisedText_eq_iff hplain, eq_comm]
  exact decide_eq_decide.2 hsame

@[simp] theorem ofValue?_raised (k : Nat) (a : Value α) :
    ActionName.ofValue? (raised k a) = ActionName.ofValue? a := by
  unfold ActionName.ofValue?
  rw [Placeholder.field?_raised]
  cases a.field? "type" with
  | none => rfl
  | some v =>
      cases v with
      | text s => exact ofText?_raisedText k s
      | _ => rfl

theorem payloadOf_raised (k : Nat) (a : Value α) :
    payloadOf (raised k a) = Placeholder.raisedFields k (payloadOf a) := by
  unfold payloadOf
  rw [Placeholder.field?_raised]
  cases a.field? "payload" with
  | none => rfl
  | some v => cases v <;> rfl

theorem objectIn_raisedFields (k : Nat) (fields : Fields α) (name : String) :
    objectIn (Placeholder.raisedFields k fields) name =
      Placeholder.raisedFields k (objectIn fields name) := by
  unfold objectIn
  rw [Placeholder.get?_raisedFields]
  cases Fields.get? fields name with
  | none => rfl
  | some v => cases v <;> rfl

theorem fieldOf_raisedFields (k : Nat) (fields : Fields α) (name : String) :
    fieldOf (Placeholder.raisedFields k fields) name = raised k (fieldOf fields name) := by
  unfold fieldOf
  rw [Placeholder.get?_raisedFields]
  cases Fields.get? fields name <;> rfl

@[simp] theorem addedId?_raised (k : Nat) (a : Value α) :
    addedId? (raised k a) = (addedId? a).map (raisedText k) := by
  unfold addedId?
  rw [ofValue?_raised, payloadOf_raised, objectIn_raisedFields, Placeholder.get?_raisedFields]
  split
  · cases Fields.get? (objectIn (payloadOf a) "props") "id" with
    | none => rfl
    | some v => exact Placeholder.text?_raised k v
  · rfl

theorem addedIds_raisedItems (k : Nat) (as : List (Value α)) :
    addedIds (Placeholder.raisedItems k as) = (addedIds as).map (raisedText k) := by
  rw [Placeholder.raisedItems_eq_map, addedIds, addedIds, List.filterMap_map, List.map_filterMap]
  congr 1
  funext a
  exact addedId?_raised k a

@[simp] theorem references_raised (k : Nat) (a : Value α) :
    references (raised k a) = (references a).map (raised k) := by
  unfold references
  rw [ofValue?_raised, payloadOf_raised]
  cases ActionName.ofValue? a with
  | none => rfl
  | some name =>
      cases name with
      | addElement =>
          simp only [fieldOf_raisedFields, Placeholder.kind_raised]
          split <;> rfl
      | updateElement => simp only [fieldOf_raisedFields, List.map_cons, List.map_nil]
      | addKeyframe => simp only [fieldOf_raisedFields, List.map_cons, List.map_nil]
      | _ => rfl

/-! ## Elements placed under a parent -/

theorem adds_iff {id : String} {a : Value α} :
    Composition.adds id a = true ↔ addedId? a = some id := by
  have htext : ∀ v? : Option (Value α),
      Composition.isText id v? = true ↔ v? = some (.text id) := by
    intro v?
    rcases v? with _ | v
    · simp [Composition.isText]
    · cases v <;> simp [Composition.isText]
  have hobject : ∀ (v : Value α) (name : String) (w : Value α),
      v.field? name = some w ↔ ∃ fields, v = .object fields ∧ Fields.get? fields name = some w := by
    intro v name w
    cases v <;> simp [Value.field?]
  rw [addedId?_eq_some_iff, Composition.adds, Composition.isNamed, Bool.and_eq_true,
    beq_iff_eq, htext]
  simp only [Option.bind_eq_some_iff, hobject _ "props", hobject _ "id"]
  constructor
  · rintro ⟨hname, _, ⟨_, hpayload, payload, rfl, hprops⟩, props, rfl, hid⟩
    exact ⟨hname, payload, hpayload, props, hprops, hid⟩
  · rintro ⟨hname, payload, hpayload, props, hprops, hid⟩
    exact ⟨hname, _, ⟨_, hpayload, payload, rfl, hprops⟩, props, rfl, hid⟩

theorem ofValue?_placeUnder (parent : Option String) (a : Value α) :
    ActionName.ofValue? (Composition.placeUnder parent a) = ActionName.ofValue? a := by
  unfold Composition.placeUnder
  split
  · split
    · simp only [ActionName.ofValue?, Value.field?]
      rw [Fields.get?_set_ne (by decide)]
    · rfl
  · rfl

theorem payload_placeUnder {a : Value α} {payload : Fields α} (parent : Option String)
    (h : a.field? "payload" = some (.object payload)) :
    (Composition.placeUnder parent a).field? "payload" =
      some (.object (Fields.set payload "targetParentId" (.ofText? parent))) := by
  cases a with
  | object fields =>
      simp only [Value.field?] at h
      simp only [Composition.placeUnder, h, Value.field?, Fields.get?_set_self]
  | _ => simp [Value.field?] at h

theorem addedId?_placeUnder {a : Value α} {id : String} (parent : Option String)
    (h : addedId? a = some id) : addedId? (Composition.placeUnder parent a) = some id := by
  obtain ⟨hname, payload, hpayload, props, hprops, hid⟩ := addedId?_eq_some_iff.1 h
  refine addedId?_eq_some_iff.2 ⟨by rw [ofValue?_placeUnder, hname], _,
    payload_placeUnder parent hpayload, props, ?_, hid⟩
  rw [Fields.get?_set_ne (by decide), hprops]

theorem references_placeUnder {a : Value α} {id : String} (parent : String)
    (h : addedId? a = some id) :
    references (Composition.placeUnder (some parent) a) = [.text parent] := by
  obtain ⟨hname, payload, hpayload, -⟩ := addedId?_eq_some_iff.1 h
  have hparent : Fields.get? (payloadOf (Composition.placeUnder (some parent) a))
      "targetParentId" = some (.text parent) :=
    get?_payloadOf_eq_some_iff.2
      ⟨_, payload_placeUnder (some parent) hpayload, Fields.get?_set_self _ _ _⟩
  simp [references, ofValue?_placeUnder, hname, fieldOf, hparent, Value.kind]

theorem addedIds_reparent (id parent : String) (as : List (Value α)) :
    addedIds (Composition.reparent id parent as) = addedIds as := by
  rw [Composition.reparent, addedIds, addedIds, List.filterMap_map]
  congr 1
  funext a
  by_cases hadds : Composition.adds id a = true
  · rw [Function.comp, if_pos hadds, addedId?_placeUnder _ (adds_iff.1 hadds),
      adds_iff.1 hadds]
  · rw [Function.comp, if_neg hadds]

/-! ## Closed sequences -/

theorem closed_mono {known known' : List String} {as : List (Value α)}
    (hsub : ∀ s ∈ known, s ∈ known') (h : Closed known as) : Closed known' as := by
  induction as generalizing known known' with
  | nil => trivial
  | cons a as ih =>
      refine ⟨fun v hv => ?_, ih (fun s hs => ?_) h.2⟩
      · obtain ⟨s, hs, rfl⟩ := h.1 v hv
        exact ⟨s, hsub s hs, rfl⟩
      · rcases List.mem_append.1 hs with hs | hs
        · exact List.mem_append_left _ hs
        · exact List.mem_append_right _ (hsub s hs)

theorem closed_append {known : List String} {as bs : List (Value α)} :
    Closed known (as ++ bs) ↔ Closed known as ∧ Closed (addedIds as ++ known) bs := by
  induction as generalizing known with
  | nil => simp [Closed, addedIds]
  | cons a as ih =>
      have hswap : Closed (addedIds as ++ ((addedId? a).toList ++ known)) bs ↔
          Closed (addedIds (a :: as) ++ known) bs := by
        have hmem : ∀ s, s ∈ addedIds as ++ ((addedId? a).toList ++ known) ↔
            s ∈ addedIds (a :: as) ++ known := by
          intro s
          cases ha : addedId? a <;> simp [addedIds, ha, or_left_comm]
        exact ⟨closed_mono fun s => (hmem s).1, closed_mono fun s => (hmem s).2⟩
      rw [List.cons_append, Closed, Closed, ih, hswap, and_assoc]

theorem closed_cons_toValue {known : List String} {a : Action α} {as : List (Value α)} :
    Closed known (a.toValue :: as) ↔
      (∀ s ∈ a.referred, s ∈ known) ∧ Closed (a.added?.toList ++ known) as := by
  rw [Closed, references_toValue, addedId?_toValue]
  refine and_congr_left fun _ => ⟨fun h s hs => ?_, fun h v hv => ?_⟩
  · obtain ⟨t, ht, heq⟩ := h (.text s) (List.mem_map_of_mem hs)
    simp only [Value.text.injEq] at heq
    rwa [heq]
  · obtain ⟨s, hs, rfl⟩ := List.mem_map.1 hv
    exact ⟨s, h s hs, rfl⟩

/-- Actions that refer to known elements only are closed. -/
theorem closed_of_referred {known : List String} {as : List (Action α)}
    (h : ∀ a ∈ as, ∀ s ∈ a.referred, s ∈ known) : Closed known (as.map Action.toValue) := by
  induction as generalizing known with
  | nil => trivial
  | cons a as ih =>
      refine closed_cons_toValue.2 ⟨h a (by simp), ih fun b hb s hs => ?_⟩
      exact List.mem_append_right _ (h b (by simp [hb]) s hs)

/-- Parts that are each closed over the same ids are closed one after the other. -/
theorem closed_flatMap {β : Type} {known : List String} {f : β → List (Value α)} {xs : List β}
    (h : ∀ x ∈ xs, Closed known (f x)) : Closed known (xs.flatMap f) := by
  induction xs generalizing known with
  | nil => trivial
  | cons x xs ih =>
      rw [List.flatMap_cons, closed_append]
      refine ⟨h x (by simp), ih fun y hy => ?_⟩
      exact closed_mono (fun s hs => List.mem_append_right _ hs) (h y (by simp [hy]))

theorem closed_raisedItems {known : List String} {k : Nat} {as : List (Value α)}
    (h : Closed known as) :
    Closed (known.map (raisedText k)) (Placeholder.raisedItems k as) := by
  induction as generalizing known with
  | nil => trivial
  | cons a as ih =>
      refine ⟨fun v hv => ?_, closed_mono (fun s hs => ?_) (ih h.2)⟩
      · rw [references_raised] at hv
        obtain ⟨w, hw, rfl⟩ := List.mem_map.1 hv
        obtain ⟨s, hs, rfl⟩ := h.1 w hw
        exact ⟨raisedText k s, List.mem_map_of_mem hs, rfl⟩
      · rw [addedId?_raised]
        cases ha : addedId? a <;> simpa [ha] using hs

theorem closed_reparent {known : List String} {as : List (Value α)} (id : String)
    {parent : String} (hparent : parent ∈ known) (h : Closed known as) :
    Closed known (Composition.reparent id parent as) := by
  induction as generalizing known with
  | nil => trivial
  | cons a as ih =>
      rw [Composition.reparent, List.map_cons]
      by_cases hadds : Composition.adds id a = true
      · have hadded := adds_iff.1 hadds
        rw [if_pos hadds, Closed, references_placeUnder parent hadded,
          addedId?_placeUnder _ hadded, ← hadded]
        refine ⟨fun v hv => ⟨parent, hparent, by simpa using hv⟩, ih ?_ h.2⟩
        exact List.mem_append_right _ hparent
      · rw [if_neg hadds]
        exact ⟨h.1, ih (List.mem_append_right _ hparent) h.2⟩

end Storyboard
