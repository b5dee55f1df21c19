import Storyboard.Plan
import Storyboard.Proofs.Binary.Order
import Storyboard.Proofs.Prompt.Digits
/-!
# Plans and their requests

Planning returns unless a row of digits in the prompt is too long to be read as a number.  The plan
has the words of the prompt and what the editor shows, and lasts for some time.
-/

namespace Storyboard

variable {α : Type} [Scalar α]

theorem Features.text_and_count_of_ofText {raw : String} {f : Features α}
    (h : Features.ofText raw = .ok f) :
    f.text = normalize raw ∧ Measure.count (normalize raw).toList = .ok f.count := by
  unfold ofText at h
  obtain ⟨count, hcount, rfl⟩ := map_eq_ok_iff.1 h
  exact ⟨rfl, hcount⟩

namespace Plan

variable {settings : Settings α} {r : Request α} {p : Plan α}

theorem ofRequest_returns (settings : Settings α) (h : Text.ShortRuns r.prompt.toList) :
    ∃ p, ofRequest settings r = .ok p := by
  obtain ⟨f, hf⟩ : ∃ f : Features α, Features.ofText r.prompt = .ok f := Features.ofText_returns h
  unfold ofRequest
  rw [hf]
  exact ⟨_, rfl⟩

/-- What a plan takes from its request: the words of the prompt, and what the editor shows. -/
structure Follows (p : Plan α) (settings : Settings α) (r : Request α) : Prop where
  text : p.features.text = Features.normalize r.prompt
  mentions : ∀ k, p.mentions k = k.isIn (Features.normalize r.prompt).toList
  count : Measure.count (Features.normalize r.prompt).toList = .ok p.features.count
  create : p.wantsCreate = p.features.any Intent.createKeywords
  duration : p.duration = Scalar.max minDuration (r.duration.getD settings.duration)
  board : p.board = r.artboard.getD
    ⟨Scalar.ofInt settings.artboardWidth, Scalar.ofInt settings.artboardHeight⟩
  selected : p.selected = r.selected
  existing : p.existing = r.existing

theorem follows_of_ofRequest (h : ofRequest settings r = .ok p) : p.Follows settings r := by
  obtain ⟨f, hf, rfl⟩ := map_eq_ok_iff.1 h
  obtain ⟨htext, hcount⟩ := Features.text_and_count_of_ofText hf
  exact ⟨htext, congrFun (Features.mentions_of_ofText hf), hcount, rfl, rfl, rfl, rfl, rfl⟩

namespace Follows

theorem any (h : p.Follows settings r) (ks : List Keyword) :
    p.features.any ks = ks.any fun k => k.isIn (Features.normalize r.prompt).toList :=
  congrArg ks.any (funext h.mentions)

theorem count_eq (h : p.Follows settings r) {k : Nat}
    (hk : (Measure.count (Features.normalize r.prompt).toList).toOption = some k) :
    p.features.count = k := by
  rw [h.count] at hk
  exact Option.some.inj hk

end Follows

theorem zero_lt_duration {settings : Settings Float} {r : Request Float} {p : Plan Float}
    (h : ofRequest settings r = .ok p) : (0.0 : Float) < p.duration := by
  rw [(follows_of_ofRequest h).duration]
  rcases Binary.max_eq_or_lt minDuration (r.duration.getD settings.duration) with heq | hlt
  · rw [heq]
    decide
  · exact Binary.lt_trans (by decide) hlt

end Plan

end Storyboard
