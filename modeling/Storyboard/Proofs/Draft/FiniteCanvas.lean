import Storyboard.Proofs.Draft.Finite
import Storyboard.Proofs.Draft.Place
/-!
# Photos, edits and overlays in finite numbers

What starts from elements of the canvas or from the place of an anchor is in finite numbers when
these leave room.
-/

namespace Storyboard

open Storyboard.Action

/-! ## Photos -/

/-- The box of a photo leaves room. -/
structure PhotoTarget.Modest (t : PhotoTarget Float) : Prop where
  x : Tame 3 t.x
  y : Tame 3 t.y
  width : Tame 1 t.width
  height : Tame 1 t.height

namespace Photo

variable {p : Plan Float}

theorem modest_target (h : p.Modest) {share : Float} (hshare : Slight share) :
    (target p share).Modest := by
  have hfound : ∀ e, found? p = some e → e.Modest := fun e he => h.canvas e (mem_of_found he)
  have hmeasure : ∀ {known : Option Float} {whole : Float}, Known 0 known → Tame 0 whole →
      Tame 1 ((known.filter fun x => !Scalar.isZero x).getD (whole * share)) :=
    fun hknown hwhole => (hknown.filter.mono (by omega)).getD (hwhole.share hshare)
  have hbind : ∀ (get : Element Float → Option Float),
      (∀ e, e.Modest → Known 0 (get e)) → Known 0 ((found? p).bind get) := by
    intro get hget x hx
    obtain ⟨e, he, hx⟩ := Option.bind_eq_some_iff.1 hx
    exact hget e (hfound e he) x hx
  have hwidth := hmeasure (hbind (·.width) fun _ he => he.width) h.width
  have hheight := hmeasure (hbind (·.height) fun _ he => he.height) h.height
  unfold target
  dsimp only
  split
  · rename_i x y hx hy
    exact ⟨(hbind (·.x) (fun _ he => he.x) x hx).mono (by omega),
      (hbind (·.y) (fun _ he => he.y) y hy).mono (by omega), hwidth, hheight⟩
  · exact ⟨(h.width.share (by decide)).sub (hwidth.quotient (by decide)),
      (h.height.share (by decide)).sub (hheight.quotient (by decide)), hwidth, hheight⟩

theorem finite_place {t : PhotoTarget Float} (ht : t.Modest) (n : Nat) :
    AllFinite (place p t n).2.1 := by
  unfold place
  split
  · simp
  · simp [ht.x.finite, ht.y.finite, ht.width.finite, ht.height.finite]

/-- How far a photo moves. -/
theorem finite_shift {x c : Float} (hx : Tame 3 x) (hc : Slight c) :
    Scalar.isFinite (x - c) = true ∧ Scalar.isFinite (x + c) = true :=
  ⟨(hx.sub hc.tame).finite (by decide), (hx.add hc.tame).finite (by decide)⟩

theorem finite_pan (h : p.Modest) (n : Nat) : AllFinite (pan p n).actions := by
  have ht : (target p 0.7).Modest := modest_target h (by decide)
  have hplaced := finite_place (p := p) ht
  have htime : Tame 0 (Scalar.max 3.0 p.duration) := (Slight.tame (by decide)).max h.duration
  have hcentre : Scalar.isFinite ((target p 0.7).x + (target p 0.7).width / 2.0) = true :=
    (ht.x.add (ht.width.quotient (by decide))).finite (by decide)
  have hbelow : Scalar.isFinite
      ((target p 0.7).y + (target p 0.7).height / 2.0 + 40.0) = true :=
    ((ht.y.add (ht.height.quotient (by decide))).add (Slight.tame (by decide))).finite (by decide)
  unfold pan
  dsimp only
  split <;> split <;>
    simp +decide [hplaced, htime, finite_shift ht.x, finite_shift ht.y, h.width, h.height,
      h.minDim, hcentre, hbelow]

theorem finite_layers (h : p.Modest) (n : Nat) : AllFinite (layers p n).actions := by
  have ht : (target p 0.75).Modest := modest_target h (by decide)
  have hplaced := finite_place (p := p) ht
  have htime : Tame 0 (Scalar.max 4.0 p.duration) := (Slight.tame (by decide)).max h.duration
  have hx : Scalar.isFinite ((target p 0.75).x + (target p 0.75).width / 2.0 -
      p.width * 0.45 / 2.0) = true :=
    ((ht.x.add (ht.width.quotient (by decide))).sub
      ((h.width.share (by decide)).quotient (by decide))).finite (by decide)
  have hy : Scalar.isFinite ((target p 0.75).y + (target p 0.75).height / 2.0 -
      p.height * 0.6 / 2.0) = true :=
    ((ht.y.add (ht.height.quotient (by decide))).sub
      ((h.height.share (by decide)).quotient (by decide))).finite (by decide)
  unfold layers
  dsimp only
  split <;> split <;>
    simp +decide [hplaced, htime, finite_shift ht.x, h.width, h.height, h.background, hx, hy]

theorem finite_build (h : p.Modest) (n : Nat) : AllFinite (build p n).actions := by
  unfold build
  split
  · exact finite_layers h n
  · exact finite_pan h n

end Photo

/-! ## Edits -/

theorem Animation.finite {m : Animation} {id : String} {d : Float} {f : Features Float}
    {base : Float × Float} {goal : Option (Float × Float)} (hd : Tame 0 d)
    (hbase : Spotted 8 base) (hgoal : ∀ spot, goal = some spot → Spotted 8 spot) :
    AllFinite (m.keyframes id d f base goal) := by
  have hstep : ∀ {x c : Float}, Tame 8 x → Slight c → Scalar.isFinite (x + c) = true :=
    fun hx hc => (hx.add hc.tame).finite (by decide)
  have hup : Scalar.isFinite (base.2 - 80.0) = true :=
    (hbase.2.sub (Slight.tame (by decide))).finite (by decide)
  have hacross : Scalar.isFinite (base.1 + if f.mentions .left then -reach else reach) = true := by
    split <;> exact hstep hbase.1 (by decide)
  have hmoving : AllFinite (moving id d f base goal) := by
    unfold moving
    split
    · rename_i x y
      have hspot := hgoal (x, y) rfl
      simp +decide [hd, hbase.1.finite, hbase.2.finite, hspot.1.finite, hspot.2.finite]
    · dsimp only
      refine allFinite_append.2 ⟨by simp +decide [hd, hbase.1.finite, hacross], ?_⟩
      split
      · simp +decide [hd, hbase.2.finite, hstep hbase.2]
      · exact allFinite_ite_nil (by simp +decide [hd, hbase.2.finite, hstep hbase.2])
  simp only [keyframes, allFinite_append]
  refine ⟨⟨⟨⟨allFinite_ite_nil hmoving, ?_⟩, ?_⟩, ?_⟩, ?_⟩
  all_goals exact allFinite_ite_nil (by simp +decide [hd, hbase.2.finite, hup])

namespace Edit

variable {p : Plan Float}

theorem tame_scaled (scale factor : Float) : Tame 0 (scaled scale factor) :=
  Tame.clamp (by decide) (by decide) (by decide) _

theorem isFinite_toFields {extent : Extent Float} (h : extent.Modest) :
    ∀ field ∈ extent.toFields, field.2.isFinite = true := by
  intro field hfield
  obtain ⟨⟨name, x?⟩, hmem, hx⟩ := List.mem_filterMap.1 hfield
  obtain ⟨x, rfl, rfl⟩ := Option.map_eq_some_iff.1 hx
  have hknown : Known 2 (some x) := by
    simp only [List.mem_cons, Prod.mk.injEq, List.not_mem_nil, or_false] at hmem
    rcases hmem with ⟨-, hx⟩ | ⟨-, hx⟩ | ⟨-, hx⟩ <;> rw [hx]
    · exact h.r
    · exact h.width
    · exact h.height
  exact (Known.some_iff.1 hknown).finite (by decide)

theorem isFinite_changes (h : p.Modest) (e : Element Float) :
    ∀ field ∈ changes p e, field.2.isFinite = true := by
  have hasked : (p.features.explicitExtent e.kind p.board).Modest :=
    Features.modest_explicitExtent _ h.features h.width h.height
  simp only [changes, List.forall_mem_append]
  refine ⟨⟨⟨⟨⟨?_, ?_⟩, ?_⟩, ?_⟩, ?_⟩, ?_⟩
  · split <;> simp
  · split
    · rename_i w hw
      have hwidth := h.features.strokeWidth.filter w hw
      exact forall_mem_ite_nil (by simp [hwidth.finite])
    · simp
  · split
    · rename_i o ho
      simp [(h.features.opacity o ho).finite]
    · simp
  · split
    · simp [tame_scaled]
    · exact forall_mem_ite_nil (by simp [tame_scaled])
  · unfold measures
    dsimp only
    split
    · exact isFinite_toFields ⟨hasked.r, .none, .none⟩
    · exact forall_mem_ite_nil (isFinite_toFields ⟨.none, hasked.width, hasked.height⟩)
  · split
    · exact forall_mem_ite_nil (by simp)
    · simp

theorem finite_repaint (f : Features Float) : AllFinite (repaint f).1 := by
  unfold repaint
  split
  · split <;> simp
  · simp

theorem finite_update? {id : String} {props : Fields Float}
    (h : ∀ field ∈ props, field.2.isFinite = true) : AllFinite (update? id props) := by
  unfold update?
  split
  · simp
  · simpa using h

theorem spotted_base (h : p.Modest) {e : Element Float} (he : e.Modest) : Spotted 1 (base p e) :=
  ⟨(he.x.mono (by omega)).getD (h.width.quotient (by decide)),
    (he.y.mono (by omega)).getD (h.height.quotient (by decide))⟩

theorem modest_extent (h : p.Modest) {e : Element Float} (he : e.Modest) :
    (extent p e).Modest := by
  have hasked : (p.features.explicitExtent e.kind p.board).Modest :=
    Features.modest_explicitExtent _ h.features h.width h.height
  unfold extent
  dsimp only
  split
  · exact ⟨hasked.r.or (he.r.mono (by omega)), hasked.width, hasked.height⟩
  · split
    · exact ⟨hasked.r, hasked.width.or (he.width.mono (by omega)),
        hasked.height.or (he.height.mono (by omega))⟩
    · exact hasked

theorem spotted_goal (h : p.Modest) {e : Element Float} (he : e.Modest) {spot : Float × Float}
    (hspot : goal? p e = some spot) : Spotted 5 spot := by
  obtain ⟨-, hspot⟩ := Option.ite_none_right_eq_some.1 hspot
  rw [← Option.some.inj hspot]
  exact spotted_resolvePosition h.width h.height (modest_extent h he)
    ((spotted_base h he).mono (by omega))

theorem finite_change (h : p.Modest) {e : Element Float} (he : e.Modest) :
    AllFinite (change p e).1 := by
  have hbase := (spotted_base h he).mono (n := 8) (by omega)
  have hgoal : ∀ spot, goal? p e = some spot → Spotted 8 spot :=
    fun spot hspot => (spotted_goal h he hspot).mono (by omega)
  refine allFinite_append.2 ⟨finite_update? ?_, Animation.finite h.duration hbase hgoal⟩
  refine List.forall_mem_append.2 ⟨isFinite_changes h e, ?_⟩
  cases hspot : goal? p e with
  | none => simp
  | some spot => simp [(hgoal spot hspot).1.finite, (hgoal spot hspot).2.finite]

theorem finite_changeAll (h : p.Modest) : AllFinite (changeAll p) := by
  refine allFinite_flatMap.2 fun e hmem => ?_
  have he := h.canvas e (List.mem_append_right _ hmem)
  refine allFinite_append.2 ⟨finite_update? (isFinite_changes h e), ?_⟩
  exact Animation.finite h.duration ((spotted_base h he).mono (by omega)) (by simp)

theorem isFinite_strokeWidth {f : Features Float} (h : f.Modest) :
    Scalar.isFinite (strokeWidth f) = true := by
  refine Tame.finite (h.strokeWidth.filter.getD ?_) (Nat.zero_le 10)
  split
  · exact Slight.tame (by decide)
  · exact Tame.zero

theorem isFinite_extras {f : Features Float} (h : f.Modest) :
    ∀ field ∈ extras f, field.2.isFinite = true := by
  unfold extras
  split
  · rename_i o ho
    simp [(h.opacity o ho).finite]
  · simp

theorem tame_fontSize (f : Features Float) :
    Tame 0 (Scalar.clamp ((nonzero? f.fontSize).getD 48.0) 18.0 96.0) :=
  Tame.clamp (by decide) (by decide) (by decide) _

/-- A new element is in finite numbers, and so is the place that it moves from. -/
theorem finite_fresh (h : p.Modest) (id : String) (index : Nat) (hindex : index < 2 ^ 53) :
    (fresh p id index).1.IsFinite ∧ Spotted 8 (fresh p id index).2 := by
  have hextent : ∀ kind, (p.features.extentFor kind p.board).Modest := fun _ =>
    Features.modest_extentFor _ h.features h.width h.height
  have hplace : Spotted 4
      (Arrangement.place p.layout p.features.count p.width p.height index) :=
    Arrangement.spotted_place h.width h.height h.features.count hindex
  have hstroke := isFinite_strokeWidth h.features
  have hextras := isFinite_extras h.features
  unfold fresh
  dsimp only
  generalize (shapeKind p.features).name = kind
  generalize (p.features.count == 1 &&
    (p.features.hasDirection || p.features.mentions .center)) = steered
  generalize Arrangement.place p.layout p.features.count p.width p.height index = spot at hplace ⊢
  have hextent := hextent kind
  have hr := hextent.r.getD Tame.zero
  have hwidth := hextent.width.getD Tame.zero
  have hheight := hextent.height.getD Tame.zero
  generalize p.features.extentFor kind p.board = extent at *
  generalize extent.width.getD 0.0 = width at *
  generalize extent.height.getD 0.0 = height at *
  have hresolve : ∀ (e : Extent Float) (start : Float × Float), e.Modest → Spotted 5 start →
      Spotted 5 (if steered then resolvePosition kind p.board e p.mentions (some start)
        else start) :=
    fun _ _ he hstart => spotted_ite (spotted_resolvePosition h.width h.height he hstart) hstart
  split
  · have hspot := hresolve extent spot hextent (hplace.mono (by omega))
    exact ⟨isFinite_circle (hspot.1.finite (by decide)) (hspot.2.finite (by decide))
      (hr.finite (by decide)) (Value.isFinite_text _)
      (Value.isFinite_text _) hstroke hextras, hspot.mono (by omega)⟩
  · have hleft : Tame 3 (width / 2.0) := hwidth.quotient (by decide)
    have htop : Tame 3 (height / 2.0) := hheight.quotient (by decide)
    have hcorner := hresolve extent (spot.1 - width / 2.0, spot.2 - height / 2.0) hextent
      ⟨hplace.1.sub hleft, hplace.2.sub htop⟩
    generalize (if steered then resolvePosition kind p.board extent p.mentions
      (some (spot.1 - width / 2.0, spot.2 - height / 2.0)) else
      (spot.1 - width / 2.0, spot.2 - height / 2.0)) = corner at *
    have hspot : Spotted 6 (if steered then (corner.1 + width / 2.0, corner.2 + height / 2.0)
        else spot) :=
      spotted_ite ⟨hcorner.1.add hleft, hcorner.2.add htop⟩ (hplace.mono (by omega))
    exact ⟨isFinite_rect ((hspot.1.sub hleft).finite (by decide))
      ((hspot.2.sub htop).finite (by decide)) (hwidth.finite (by decide))
      (hheight.finite (by decide)) (Value.isFinite_text _) (Value.isFinite_text _) hstroke hextras,
      hspot.mono (by omega)⟩
  · have hspot := hresolve {} spot Extent.modest_empty (hplace.mono (by omega))
    exact ⟨isFinite_text (hspot.1.finite (by decide)) (hspot.2.finite (by decide))
      ((tame_fontSize p.features).finite (by decide))
      (Value.isFinite_text _) hextras, hspot.mono (by omega)⟩

theorem finite_create (h : p.Modest) (n : Nat) : AllFinite (create p n).1 := by
  refine allFinite_flatMap.2 fun index hmem => ?_
  have hcount := h.features.count
  have hmax : Measure.maxCount < 2 ^ 53 := by decide
  have hindex := List.mem_range.1 hmem
  obtain ⟨helement, hspot⟩ := finite_fresh h (Placeholder.id (n + 1 + index)) index
    (by omega)
  exact allFinite_cons.2 ⟨helement, Animation.finite h.duration hspot (by simp)⟩

theorem finite_of_build {n : Nat} {d : Draft Float} (h : p.Modest) (hd : build p n = .ok d) :
    AllFinite d.actions := by
  have hpainted := finite_repaint p.features
  rcases build_cases hd with hall | rfl | ⟨e, he, rfl⟩
  · simp only [forAll?, Option.ite_none_right_eq_some, Option.some.injEq] at hall
    rw [← hall.2]
    exact allFinite_append.2 ⟨hpainted, finite_changeAll h⟩
  · exact allFinite_append.2 ⟨hpainted, finite_create h n⟩
  · exact allFinite_append.2 ⟨hpainted, finite_change h (h.canvas e he)⟩

end Edit

/-! ## Camera and weather -/

theorem Camera.finite_motion {p : Plan Float} {anchor : String} {origin : Float × Float}
    (h : p.Modest) (horigin : Spotted 1 origin) : AllFinite (motion p anchor origin) := by
  have hpan : Slight (panX p) ∧ Slight (panY p) := by
    unfold panX panY
    constructor <;> split
    · decide
    · split <;> decide
    · decide
    · split <;> decide
  have hzoom : Slight (zoom p) := by
    unfold zoom
    split
    · decide
    · split <;> decide
  simp +decide [motion, h.timed.start, h.timed.finish, horigin.1.finite, horigin.2.finite,
    (horigin.1.add hpan.1.tame).finite, (horigin.2.add hpan.2.tame).finite, hzoom.tame.finite]

namespace Weather

variable {p : Plan Float}

theorem finite_drop (h : p.Modest) (group id : String) (index : Nat) :
    AllFinite (drop p group id index) := by
  have hx : Scalar.isFinite (p.width * 0.1 + Scalar.ofNat (index % 8) * (p.width * 0.1)) = true :=
    ((h.width.share (by decide)).add
      (Tame.times (slight_ofNat (by omega)) (h.width.share (by decide)))).finite (by decide)
  have hy : Tame 2 (Scalar.ofNat (index % 2) * (p.height * 0.2)) :=
    Tame.times (slight_ofNat (by omega)) (h.height.share (by decide))
  have hrange : ∀ c, Slight c →
      Scalar.isFinite (Scalar.ofNat (index % 2) * (p.height * 0.2) - p.height * c) = true ∧
        Scalar.isFinite (Scalar.ofNat (index % 2) * (p.height * 0.2) + p.height * c) = true :=
    fun _ hc => ⟨(hy.sub (h.height.share hc)).finite (by decide),
      (hy.add (h.height.share hc)).finite (by decide)⟩
  simp +decide [drop, h.height, h.duration, hx, hy.finite, hrange]

theorem finite_flake (h : p.Modest) (group id : String) (index : Nat) :
    AllFinite (flake p group id index) := by
  have hx : Tame 3 (p.width * 0.12 + Scalar.ofNat (index % 7) * (p.width * 0.12)) :=
    (h.width.share (by decide)).add
      (Tame.times (slight_ofNat (by omega)) (h.width.share (by decide)))
  have hy : Tame 2 (Scalar.ofNat (index % 2) * (p.height * 0.2)) :=
    Tame.times (slight_ofNat (by omega)) (h.height.share (by decide))
  have hr : Scalar.isFinite (Scalar.ofNat (3 + index % 3)) = true :=
    (slight_ofNat (by omega)).tame.finite (by decide)
  have hten : Slight 10.0 ∧ Slight 20.0 := by decide
  have hfall : Scalar.isFinite
      (Scalar.ofNat (index % 2) * (p.height * 0.2) + p.height * 0.7) = true :=
    (hy.add (h.height.share (by decide))).finite (by decide)
  simp +decide [flake, h.duration, hx.finite, hy.finite, hr, hfall,
    (hy.sub hten.2.tame).finite, (hx.sub hten.1.tame).finite, (hx.add hten.1.tame).finite]

theorem finite_overlay (h : p.Modest) (n : Nat) (parent : Option String)
    {origin : Float × Float} (horigin : Spotted 1 origin) :
    AllFinite (overlay p n parent origin) := by
  have hgroup : Scalar.isFinite (-origin.1) = true ∧ Scalar.isFinite (-origin.2) = true :=
    ⟨horigin.1.neg.finite (by decide), horigin.2.neg.finite (by decide)⟩
  unfold overlay
  dsimp only
  split
  · simp
  · simp [hgroup, finite_drop h]
  · simp [hgroup, finite_flake h]

end Weather

end Storyboard
