import Storyboard.Edit
import Storyboard.Photo
import Storyboard.Proofs.Draft.Canvas
import Storyboard.Proofs.Draft.Renumbering
/-!
# Drafts over the canvas that start at another number

Photos and edits mention elements of the canvas and show words of the prompt.  As long as these
hold no placeholder, such a draft too is moved on as a whole when it starts after `n`.
-/

namespace Storyboard

open Placeholder (textRuns Moves TextMoves FieldsMove textMoves_id textMoves_of_textRuns
  fieldsMove_append fieldsMove_nil fieldsMove_setAll moves_text)
open Storyboard.Action

variable {α : Type} {n last : Nat}

/-- No text that a plan takes over from its request holds a placeholder. -/
structure Plan.Unmarked (p : Plan α) : Prop where
  ids : ∀ e ∈ p.selected.toList ++ p.existing, textRuns e.id = []
  href : ∀ href, p.imageHref = some href → textRuns href = []
  colour : ∀ c, p.features.colour = some c → textRuns c = []
  content : ∀ s, p.features.content = some s → textRuns s = []

/-- No id, image address or prompt of a request holds a placeholder. -/
structure Request.Unmarked (r : Request α) : Prop where
  prompt : textRuns r.prompt = []
  ids : ∀ e ∈ r.selected.toList ++ r.existing, textRuns e.id = []
  href : ∀ e ∈ r.selected, ∀ href, e.href = some href → textRuns href = []

namespace Photo

theorem moved_image {p : Plan α} {id id' : String} (hp : p.Unmarked) {x y width height : α}
    (hid : TextMoves n last id id') :
    (image id x y width height p.imageHref).Moved n last
      (image id' x y width height p.imageHref) := by
  refine ⟨rfl, hid, fieldsMove_setAll (fieldsMove_append (by simp) ?_) fieldsMove_nil,
    fieldsMove_nil⟩
  cases hhref : p.imageHref with
  | none => exact fieldsMove_nil
  | some href =>
      dsimp only
      split
      · exact fieldsMove_nil
      · simp [textMoves_of_textRuns (hp.href href hhref)]

end Photo

namespace Edit

variable {p : Plan α}

theorem moved_repaint (hp : p.Unmarked) :
    List.Forall₂ (Action.Moved n last) (repaint p.features).1 (repaint p.features).1 := by
  unfold repaint
  split
  · rename_i c hc
    split
    · simp [Action.Moved, textMoves_of_textRuns (hp.colour c hc)]
    · exact .nil
  · exact .nil

theorem fieldsMove_toFields (e : Extent α) : FieldsMove n last e.toFields e.toFields := by
  refine List.forall₂_same.2 fun f hf => ⟨rfl, ?_⟩
  obtain ⟨⟨name, x?⟩, -, hf⟩ := List.mem_filterMap.1 hf
  obtain ⟨x, -, rfl⟩ := Option.map_eq_some_iff.1 hf
  exact Placeholder.moves_real x

theorem textRuns_content? (hp : p.Unmarked) {s : String} (h : content? p.features = some s) :
    textRuns s = [] :=
  hp.content s (Option.filter_eq_some_iff.1 h).1

theorem moved_update? {id : String} {props : Fields α} (hid : textRuns id = [])
    (hprops : FieldsMove n last props props) :
    List.Forall₂ (Action.Moved n last) (update? id props) (update? id props) := by
  unfold update?
  split
  · exact .nil
  · exact .cons ⟨textMoves_of_textRuns hid, hprops⟩ .nil

theorem textRuns_fill {f : Features α} (h : ∀ c, f.colour = some c → textRuns c = [])
    (index : Nat) : textRuns (fill f index) = [] := by
  unfold fill
  cases hc : f.colour with
  | some c => exact h c hc
  | none =>
      cases hat : (Colour.named.map (·.2))[index % Colour.named.length]? with
      | none => exact Placeholder.textRuns_of_not_mem_brace (by simp)
      | some c =>
          obtain ⟨colour, hcolour, rfl⟩ := List.mem_map.1 (List.mem_of_getElem? hat)
          exact Placeholder.textRuns_of_not_mem_brace (Colour.braceless_of_mem_named hcolour)

theorem textRuns_stroke {f : Features α} (h : ∀ c, f.colour = some c → textRuns c = []) :
    textRuns (stroke f) = [] := by
  unfold stroke
  split
  · cases hc : f.colour with
    | some c => exact h c hc
    | none => exact Placeholder.textRuns_of_not_mem_brace (by simp)
  · exact Placeholder.textRuns_of_not_mem_brace (by simp)

theorem moves_fill (hp : p.Unmarked) (index : Nat) :
    Moves (α := α) n last (.text (fill p.features index)) (.text (fill p.features index)) :=
  moves_text.2 (textMoves_of_textRuns (textRuns_fill hp.colour index))

theorem moves_stroke (hp : p.Unmarked) :
    Moves (α := α) n last (.text (stroke p.features)) (.text (stroke p.features)) :=
  moves_text.2 (textMoves_of_textRuns (textRuns_stroke hp.colour))

theorem fieldsMove_extras (f : Features α) : FieldsMove n last (extras f) (extras f) := by
  unfold extras
  split <;> simp

theorem moved_drafted {notes : List String} {as bs : List (Action α)} (issued : Nat)
    (h : List.Forall₂ (Action.Moved n issued) as bs) :
    (drafted notes as issued).Moved n (drafted notes bs (n + issued)) :=
  ⟨rfl, rfl, h, .none, fieldsMove_nil, rfl⟩

end Edit

variable [Scalar α]

theorem Plan.unmarked_of_ofRequest {settings : Settings α} {r : Request α} {p : Plan α}
    (hr : r.Unmarked) (h : Plan.ofRequest settings r = .ok p) : p.Unmarked := by
  obtain ⟨f, hf, rfl⟩ := map_eq_ok_iff.1 h
  refine ⟨hr.ids, fun href hhref => ?_, fun c hc => ?_, fun s hs => ?_⟩
  · obtain ⟨e, he, hhref⟩ := Option.bind_eq_some_iff.1 hhref
    exact hr.href e he href hhref
  · exact Features.textRuns_colour hf hc
  · exact Features.textRuns_content hr.prompt hf hs

/-! ## Photos -/

namespace Photo

variable {p : Plan α}

theorem textRuns_target (hp : p.Unmarked) {share : α} {id : String}
    (h : (target p share).id = some id) : textRuns id = [] := by
  rw [target_id] at h
  obtain ⟨e, he, rfl⟩ := Option.map_eq_some_iff.1 h
  exact hp.ids e (mem_of_found he)

/-- A pan numbers its image, if that is new, its orb and its silhouette from where it starts. -/
theorem moved_pan (hpaint : p.Painted) (hp : p.Unmarked) (n : Nat) :
    (pan p 0).Moved n (pan p n) := by
  cases hid : (target p 0.7).id with
  | none =>
      by_cases hparallax : p.mentions .parallax = true <;>
        by_cases hsilhouette : p.mentions .silhouette = true <;>
        constructor <;>
        simp [pan, place, hid, hparallax, hsilhouette, moved_image hp, textMoves_id,
          hpaint.moves_colour, Curve.textRuns_render, Nat.add_assoc]
  | some id =>
      have hself : ∀ last, TextMoves n last id id := fun last =>
        textMoves_of_textRuns (textRuns_target hp hid)
      by_cases hparallax : p.mentions .parallax = true <;>
        by_cases hsilhouette : p.mentions .silhouette = true <;>
        constructor <;>
        simp [pan, place, hid, hself, hparallax, hsilhouette, textMoves_id,
          hpaint.moves_colour, Curve.textRuns_render, Nat.add_assoc]

/-- Layers number backdrop and image, if the image is new, the overlay and its frame from where
they start. -/
theorem moved_layers (hpaint : p.Painted) (hp : p.Unmarked) (n : Nat) :
    (layers p 0).Moved n (layers p n) := by
  cases hid : (target p 0.75).id with
  | none =>
      by_cases hframed : p.features.any [.boundingBox, .subject] = true <;>
        constructor <;>
        simp [layers, place, hid, hframed, moved_image hp, textMoves_id, hpaint.moves_background,
          hpaint.moves_colour, Nat.add_assoc]
  | some id =>
      have hself : ∀ last, TextMoves n last id id := fun last =>
        textMoves_of_textRuns (textRuns_target hp hid)
      by_cases hframed : p.features.any [.boundingBox, .subject] = true <;>
        constructor <;>
        simp [layers, place, hid, hself, hframed, textMoves_id, hpaint.moves_colour,
          Nat.add_assoc]

theorem moved_build (hpaint : p.Painted) (hp : p.Unmarked) (n : Nat) :
    (build p 0).Moved n (build p n) := by
  unfold build
  split
  · exact moved_layers hpaint hp n
  · exact moved_pan hpaint hp n

end Photo

/-! ## Edits -/

theorem Animation.moved_keyframes {id id' : String} (h : TextMoves n last id id')
    (m : Animation) (d : α) (f : Features α) (base : α × α) (goal : Option (α × α)) :
    List.Forall₂ (Action.Moved n last) (m.keyframes id d f base goal)
      (m.keyframes id' d f base goal) := by
  have hmoving : List.Forall₂ (Action.Moved n last) (moving id d f base goal)
      (moving id' d f base goal) := by
    unfold moving
    split
    · simp [h]
    · refine List.rel_append (by simp [h]) ?_
      split
      · simp [h]
      · split <;> simp [h]
  refine List.rel_append (List.rel_append (List.rel_append (List.rel_append ?_ ?_) ?_) ?_) ?_
  · split
    · exact hmoving
    · exact .nil
  all_goals
    split
    · simp [h]
    · exact .nil

namespace Edit

variable {p : Plan α}

theorem fieldsMove_measures (p : Plan α) (kind : String) :
    FieldsMove n last (measures p kind) (measures p kind) := by
  unfold measures
  dsimp only
  split
  · exact fieldsMove_toFields _
  · split
    · exact fieldsMove_toFields _
    · exact fieldsMove_nil

/-- Of what a prompt changes on an element, only colours and words are texts. -/
theorem fieldsMove_changes (hp : p.Unmarked) (e : Element α) :
    FieldsMove n last (changes p e) (changes p e) := by
  unfold changes
  dsimp only
  refine fieldsMove_append (fieldsMove_append (fieldsMove_append (fieldsMove_append
    (fieldsMove_append ?_ ?_) ?_) ?_) (fieldsMove_measures p e.kind)) ?_
  · split
    · rename_i c hc
      simp [textMoves_of_textRuns (hp.colour c hc)]
    · exact fieldsMove_nil
  · split
    · split <;> simp
    · exact fieldsMove_nil
  · split <;> simp
  · split
    · simp
    · split <;> simp
  · split
    · rename_i s hs
      split
      · simp [textMoves_of_textRuns (textRuns_content? hp hs)]
      · exact fieldsMove_nil
    · exact fieldsMove_nil

theorem moved_changeAll (hp : p.Unmarked) :
    List.Forall₂ (Action.Moved n last) (changeAll p) (changeAll p) := by
  refine List.forall₂_same.2 fun a ha => ?_
  obtain ⟨e, he, ha⟩ := List.mem_flatMap.1 ha
  have hid := hp.ids e (List.mem_append_right _ he)
  have hone : List.Forall₂ (Action.Moved n last) (changeInPlace p e) (changeInPlace p e) :=
    List.rel_append (moved_update? hid (fieldsMove_changes hp e))
      (Animation.moved_keyframes (textMoves_of_textRuns hid) _ _ _ _ _)
  exact List.forall₂_same.1 hone a ha

theorem moved_change (hp : p.Unmarked) {e : Element α}
    (he : e ∈ p.selected.toList ++ p.existing) :
    List.Forall₂ (Action.Moved n last) (change p e).1 (change p e).1 := by
  have hid := hp.ids e he
  refine List.rel_append (moved_update? hid (fieldsMove_append (fieldsMove_changes hp e) ?_))
    (Animation.moved_keyframes (textMoves_of_textRuns hid) _ _ _ _ _)
  split
  · simp
  · exact fieldsMove_nil

/-- The id of a new element decides neither its shape nor its place. -/
theorem moved_fresh (hp : p.Unmarked) {id id' : String} (h : TextMoves n last id id')
    (index : Nat) :
    (fresh p id index).1.Moved n last (fresh p id' index).1 ∧
      (fresh p id' index).2 = (fresh p id index).2 := by
  have hcontent : TextMoves n last ((content? p.features).getD "Vector Maestro")
      ((content? p.features).getD "Vector Maestro") := by
    cases hs : content? p.features with
    | none => simp
    | some s => exact textMoves_of_textRuns (textRuns_content? hp hs)
  have hfill : Moves (α := α) n last (.text (fill p.features index)) _ := moves_fill hp index
  have hstroke : Moves (α := α) n last (.text (stroke p.features)) _ := moves_stroke hp
  have hextras : FieldsMove n last (extras p.features) _ := fieldsMove_extras p.features
  unfold fresh
  dsimp only
  generalize shapeKind p.features = kind
  cases kind <;> dsimp only
  case circle => exact ⟨moved_circle h hfill hstroke hextras, rfl⟩
  case rect => exact ⟨moved_rect h hfill hstroke hextras, rfl⟩
  all_goals
    refine ⟨⟨rfl, h, fieldsMove_setAll ?_ hextras, fieldsMove_nil⟩, rfl⟩
    simp [hcontent, moves_text.1 hfill]

theorem moved_freshAnimated (hp : p.Unmarked) (n : Nat) {index count : Nat}
    (h : index < count) :
    List.Forall₂ (Action.Moved n count) (freshAnimated p 0 index) (freshAnimated p n index) := by
  have hid : TextMoves n count (Placeholder.id (0 + 1 + index))
      (Placeholder.id (n + 1 + index)) := by
    rw [Nat.zero_add, Nat.add_assoc]
    exact textMoves_id (by omega) (by omega)
  obtain ⟨helement, hbase⟩ := moved_fresh hp hid index
  unfold freshAnimated
  dsimp only
  rw [hbase]
  exact .cons helement (Animation.moved_keyframes hid _ _ _ _ _)

theorem moved_forNew (hp : p.Unmarked) (n : Nat) : (forNew p 0).Moved n (forNew p n) := by
  have hcreated : List.Forall₂ (Action.Moved n p.features.count) (create p 0).1 (create p n).1 :=
    forall₂_flatMap_range fun i hi => moved_freshAnimated hp n hi
  have hissued : 0 + p.features.count = p.features.count := Nat.zero_add _
  unfold forNew
  rw [hissued]
  exact moved_drafted _ (List.rel_append (moved_repaint hp) hcreated)

theorem moved_forOne (hp : p.Unmarked) (n : Nat) {e : Element α}
    (he : e ∈ p.selected.toList ++ p.existing) : (forOne p 0 e).Moved n (forOne p n e) :=
  moved_drafted 0 (List.rel_append (moved_repaint hp) (moved_change hp he))

theorem moved_forAll? (hp : p.Unmarked) (n : Nat) :
    Option.Rel (Draft.Moved n) (forAll? p 0) (forAll? p n) := by
  unfold forAll?
  dsimp only
  split
  · exact .some (moved_drafted 0
      (List.rel_append (moved_repaint hp) (moved_changeAll hp)))
  · exact .none

/-- An edit finds its element, or fails to, wherever it starts. -/
theorem moved_build (hp : p.Unmarked) (n : Nat) :
    (∃ fault, build p 0 = .error fault ∧ build p n = .error fault) ∨
      ∃ d e, build p 0 = .ok d ∧ build p n = .ok e ∧ d.Moved n e := by
  have hall := moved_forAll? hp n
  unfold build
  split
  · exact .inr ⟨_, _, rfl, rfl, moved_forNew hp n⟩
  · revert hall
    generalize forAll? p 0 = d?
    generalize forAll? p n = e?
    intro hall
    cases hall with
    | some hmoved => exact .inr ⟨_, _, rfl, rfl, hmoved⟩
    | none =>
        dsimp only
        cases htarget : target? p with
        | error fault => exact .inl ⟨fault, rfl, rfl⟩
        | ok target =>
            cases target with
            | none => exact .inr ⟨_, _, rfl, rfl, moved_forNew hp n⟩
            | some e =>
                have he := mem_of_target? htarget
                rw [ok_bind, ok_bind]
                dsimp only
                split
                · exact .inr ⟨_, _, rfl, rfl, moved_forNew hp n⟩
                · exact .inr ⟨_, _, rfl, rfl, moved_forOne hp n he⟩

end Edit

end Storyboard
