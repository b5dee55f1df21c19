import Storyboard.Proofs.Artboard
import Storyboard.Proofs.Beats
import Storyboard.Proofs.Binary.Natural
import Storyboard.Proofs.Compiler.Coherence
import Storyboard.Proofs.Draft.Room
import Storyboard.Proofs.Plan
import Storyboard.Proofs.Prompt.Counting
import Storyboard.Proofs.Prompt.Percent
/-!
# Sound plans

Whatever the settings say and whatever a request holds, its plan is sound: it lasts for two seconds
or longer, its beats tile that time, it has a few colours, a builder for its scene, and an artboard
within the limits when the request brings none.  There is no plan only for a prompt that counts its
shapes with a number that is too long to be read.
-/

namespace Storyboard

open Binary

/-- The sides of an artboard are whole numbers within the limits, which are exact in binary. -/
theorem ofInt_within {n : Int} (hlow : 16 ≤ n) (hhigh : n ≤ 16384) :
    (16.0 : Float) ≤ Scalar.ofInt n ∧ (Scalar.ofInt n : Float) ≤ 16384.0 := by
  obtain ⟨k, rfl⟩ := Int.eq_ofNat_of_zero_le (Int.le_trans (by decide) hlow)
  have hvalue : Scalar.toRat? (Scalar.ofInt k : Float) = some (k : Rat) :=
    toRat?_ofNat (by omega) (by omega)
  have hleast : Scalar.toRat? (16.0 : Float) = some 16 := by
    rw [toRat?_eq_value?]
    show some ((2 ^ 52 : Nat) * (2 : Rat) ^ (-48 : Int)) = some 16
    norm_num
  have hlargest : Scalar.toRat? (16384.0 : Float) = some 16384 := by
    rw [toRat?_eq_value?]
    show some ((2 ^ 52 : Nat) * (2 : Rat) ^ (-38 : Int)) = some 16384
    norm_num
  rw [le_iff_le hleast hvalue, le_iff_le hvalue hlargest]
  exact ⟨by exact_mod_cast hlow, by exact_mod_cast hhigh⟩

namespace Plan

/-- What every plan of a request keeps to. -/
structure Sound (r : Request Float) (p : Plan Float) : Prop where
  duration : 2.0 ≤ p.duration
  beats : p.beats.Tile p.duration
  palette : 1 ≤ p.palette.toList.length ∧ p.palette.toList.length ≤ 6
  photo : p.wantsLayers = true → p.wantsPhoto = true
  scene : p.wantsScene = true → (Scene.builder? (α := Float) p.archetype).isSome = true
  artboard : r.artboard = none →
    (16.0 ≤ p.width ∧ p.width ≤ 16384.0) ∧ (16.0 ≤ p.height ∧ p.height ≤ 16384.0)

variable {env : Surroundings} {r : Request Float} {p : Plan Float}

/-- A plan lasts for two seconds, or for longer. -/
theorem duration_eq_or_lt (h : ofRequest (Settings.read env) r = .ok p) :
    p.duration = 2.0 ∨ 2.0 < p.duration := by
  rw [(follows_of_ofRequest h).duration]
  exact max_eq_or_lt minDuration _

theorem board_of_ofRequest (h : ofRequest (Settings.read env) r = .ok p)
    (hnone : r.artboard = none) :
    (16.0 ≤ p.width ∧ p.width ≤ 16384.0) ∧ (16.0 ≤ p.height ∧ p.height ≤ 16384.0) := by
  rw [width, height, (follows_of_ofRequest h).board, hnone]
  exact ⟨ofInt_within (Settings.le_wholeNumber _ _ _ (by decide))
      (Settings.wholeNumber_le _ _ (by decide) (by decide)),
    ofInt_within (Settings.le_wholeNumber _ _ _ (by decide))
      (Settings.wholeNumber_le _ _ (by decide) (by decide))⟩

/-- How the parts of a plan depend on each other. -/
theorem parts_of_ofRequest (h : ofRequest (Settings.read env) r = .ok p) :
    p.beats = .ofDuration p.duration ∧ p.palette.toList.length ≤ Palette.limit ∧
      (p.wantsLayers = true → p.wantsPhoto = true) := by
  obtain ⟨f, -, rfl⟩ := map_eq_ok_iff.1 h
  exact ⟨rfl, Palette.length_resolve_le _ _, fun hlayers => (Bool.and_eq_true_iff.1 hlayers).1⟩

theorem sound_of_ofRequest (h : ofRequest (Settings.read env) r = .ok p) : p.Sound r := by
  obtain ⟨hbeats, hpalette, hphoto⟩ := parts_of_ofRequest h
  obtain ⟨htwo, hone⟩ : (2.0 : Float) ≤ p.duration ∧ (1.0 : Float) ≤ p.duration := by
    rcases duration_eq_or_lt h with heq | hlt
    · rw [heq]
      decide
    · exact ⟨le_of_lt hlt, le_of_lt (lt_trans (by decide) hlt)⟩
  exact {
    duration := htwo
    beats := hbeats ▸ Beats.tile_ofDuration (zero_lt_duration h) hone
    palette := ⟨Nat.succ_le_of_lt (Nat.succ_pos _), hpalette⟩
    photo := hphoto
    scene := fun hwants => Option.isSome_iff_exists.2 (Compiler.exists_builder h hwants)
    artboard := board_of_ofRequest h }

theorem ofValue_eq {value : Value Float} (h : Request.ofValue value = .ok r)
    (settings : Settings Float) :
    ofValue settings value = (ofRequest settings r).mapError Refusal.fault := by
  rw [ofValue, h]
  dsimp only
  cases ofRequest settings r <;> rfl

/-- A request that can be read has a sound plan, unless it counts its shapes with a number that is
too long to be read. -/
theorem sound_of_ofValue (env : Surroundings) {value : Value Float}
    (h : Request.ofValue value = .ok r) :
    (¬ Measure.Overlong (Features.normalize r.prompt).toList →
      ∃ p, ofValue (Settings.read env) value = .ok p ∧ p.Sound r) ∧
    (Measure.Overlong (Features.normalize r.prompt).toList → ∃ digits,
      ofValue (Settings.read env) value = .error (.fault (.tooManyDigits (some digits)))) := by
  rw [ofValue_eq h]
  constructor
  · intro hshort
    obtain ⟨n, hcount⟩ := Measure.count_of_not_overlong hshort
    obtain ⟨p, hp⟩ : ∃ p, ofRequest (Settings.read env) r = .ok p := by
      rw [ofRequest, Features.ofText, hcount]
      exact ⟨_, rfl⟩
    exact ⟨p, by rw [hp]; rfl, sound_of_ofRequest hp⟩
  · intro hlong
    obtain ⟨digits, hcount⟩ := Measure.count_of_overlong hlong
    rw [ofRequest, Features.ofText, hcount]
    exact ⟨digits, rfl⟩

/-- A sunset that lasts for no number of seconds. -/
def timelessValue : Value Float :=
  .object [("userRequest", .text "sunset"), ("animationDuration", .text "nan")]

theorem sound_of_ofValue_timeless : ∃ r, Request.ofValue timelessValue = .ok r ∧ ∃ p,
    ofValue (Settings.read fun _ => some "1_000_000") timelessValue = .ok p ∧ p.Sound r := by
  obtain ⟨r, hr, hprompt⟩ : ∃ r, Request.ofValue timelessValue = .ok r ∧ r.prompt = "sunset" :=
    ⟨_, rfl, rfl⟩
  refine ⟨r, hr, (sound_of_ofValue (fun _ => some "1_000_000") hr).1 fun hlong => ?_⟩
  have hcount : Measure.count (Features.normalize "sunset").toList = .ok 1 := by rfl
  obtain ⟨digits, hfails⟩ := Measure.count_of_overlong hlong
  rw [hprompt, hcount] at hfails
  cases hfails

/-! ### A crowd -/

/-- A number with one digit too many, of circles. -/
def crowdPrompt : String :=
  String.ofList (List.replicate (Fault.digitLimit + 1) '9' ++ " circles".toList)

def crowdValue : Value Float := .object [("userRequest", .text crowdPrompt)]

theorem ofValue_crowd : Request.ofValue crowdValue = .ok { prompt := crowdPrompt } := by
  unfold crowdValue
  generalize crowdPrompt = prompt
  rfl

theorem normalize_digits_circles {ds : List Char} (hne : ds ≠ [])
    (hds : ∀ d ∈ ds, Text.isDigit d = true) :
    (Features.normalize (String.ofList (ds ++ " circles".toList))).toList =
      ds ++ " circles".toList := by
  obtain ⟨d, ds, rfl⟩ := List.exists_cons_of_ne_nil hne
  have hnoun : ∀ before, Text.lowerFrom before " circles".toList = " circles".toList :=
    fun _ => rfl
  have hsplit : d :: ds ++ " circles".toList =
      [] ++ (d :: (ds ++ " circle".toList)) ++ 's' :: [] := by
    simp
  rw [Features.normalize, Text.trim, String.toList_ofList, Text.lower, String.toList_ofList,
    String.toList_ofList, Text.lowerFrom_digits_append _ _ hds, hnoun, hsplit,
    Text.trimBy_append _ _ _ (Text.isBlank_of_isDigit (List.forall_mem_cons.1 hds).1) (by decide)]
  rfl

theorem overlong_crowd : Measure.Overlong (Features.normalize crowdPrompt).toList := by
  have hds : ∀ d ∈ List.replicate (Fault.digitLimit + 1) '9', Text.isDigit d = true := by
    intro d hd
    rw [List.eq_of_mem_replicate hd]
    decide
  have hne : List.replicate (Fault.digitLimit + 1) '9' ≠ [] := List.cons_ne_nil _ _
  refine ⟨List.replicate (Fault.digitLimit + 1) '9', ⟨[], ?_, fun _ _ _ => Nat.zero_le _⟩, ?_⟩
  · rw [crowdPrompt, normalize_digits_circles hne hds]
    exact ⟨hne, hds, [' '], "circle", ['s'], by simp, List.forall_mem_singleton.2 rfl,
      by decide +kernel⟩
  · rw [List.length_replicate]
    exact Nat.lt_succ_self _

/-- The crowd has no plan. -/
theorem not_sound_crowd : Request.ofValue crowdValue = .ok { prompt := crowdPrompt } ∧
    ¬ ∃ p, ofValue (Settings.read fun _ => none) crowdValue = .ok p ∧
      p.Sound { prompt := crowdPrompt } := by
  refine ⟨ofValue_crowd, ?_⟩
  rintro ⟨p, hp, -⟩
  obtain ⟨digits, hcount⟩ := Measure.count_of_overlong overlong_crowd
  rw [ofValue_eq ofValue_crowd, ofRequest, Features.ofText, hcount] at hp
  cases hp

end Plan

end Storyboard
