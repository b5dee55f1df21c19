import Storyboard.Service
import Storyboard.Proofs.Compiler.Finite
import Storyboard.Proofs.Compiler.Keeping
/-!
# Replies of the service

A call that is read as a request is refused for its length, answered under the contracts, or told
that it failed, unless the answer holds a number that cannot be written: then the reply is a bare
error, though the counters have moved.  Plain requests never come to that.
-/

namespace Storyboard.Service

open Compiler (Kept answer)

/-- A call of the route that generates, with a body that is read as a request. -/
structure Asks (c : Call Float) (r : Request Float) : Prop where
  route : c.route = "generate"
  body : ∃ fields, received c.body = .ok (.object fields) ∧
    Request.read .notSource fields = .valid r

/-- The replies that a request should get. -/
inductive Promised (settings : Settings Float) (r : Request Float) : Reply Float → Prop
  | tooLong (h : settings.maxPromptChars < r.prompt.length) :
    Promised settings r (.detail 422 (.object [("error", .text "prompt_too_long"),
      ("max_chars", .int settings.maxPromptChars)]))
  | answered (hfinite : (answer settings r).toValue.isFinite = true)
      (hkept : Kept (answer settings r)) :
    Promised settings r
      { status := 200
        content := .value (answer settings r).toValue
        outcome := some (labelOf (answer settings r)) }
  | failed :
    Promised settings r
      { status := 500
        content := .value (.object [
          ("summary", .text Outcome.failureSummary), ("actions", .list [])])
        outcome := some .failure }

/-- There is an answer to send, and it holds a number that cannot be written. -/
structure Unwritable (settings : Settings Float) (r : Request Float) : Prop where
  short : ¬ settings.maxPromptChars < r.prompt.length
  sent : ¬ ((answer settings r).summary = Outcome.failureSummary ∧
    (answer settings r).actions.isEmpty)
  infinite : (answer settings r).toValue.isFinite = false

variable {settings : Settings Float} {c : Call Float} {r : Request Float}

theorem call_of_asks (h : Asks c r) : call settings c = generate settings r := by
  obtain ⟨fields, hbody, hread⟩ := h.body
  simp only [call, h.route, if_true, hbody, replying, hread]

theorem generate_of_unwritable (h : Unwritable settings r) :
    generate settings r =
      { Reply.internalError with outcome := some (labelOf (answer settings r)) } := by
  have hkeeps := Compiler.keeps_of_kept (Compiler.kept_answer settings r)
  have hsent := h.sent
  simp only [generate, if_neg h.short, Bool.and_eq_true, decide_eq_true_eq, if_neg hsent, hkeeps,
    if_true, Reply.ofValue, h.infinite, Bool.false_eq_true, if_false]

theorem promised_of_writable (h : ¬ Unwritable settings r) :
    Promised settings r (generate settings r) := by
  have hkept := Compiler.kept_answer settings r
  have hkeeps := Compiler.keeps_of_kept hkept
  unfold generate
  split
  · exact .tooLong ‹_›
  · rename_i hshort
    simp only [hkeeps, if_true, Bool.and_eq_true, decide_eq_true_eq]
    split
    · exact .failed
    · rename_i hsent
      have hfinite : (answer settings r).toValue.isFinite = true :=
        Bool.not_eq_false _ ▸ fun hbroken => h ⟨hshort, hsent, hbroken⟩
      rw [Reply.ofValue, if_pos hfinite]
      exact .answered hfinite hkept

theorem writable_of_plain (env : Surroundings) (h : r.Plain) :
    ¬ Unwritable (Settings.read env) r := by
  intro hunwritable
  have hfinite := Compiler.isFinite_answer env h
  rw [hunwritable.infinite] at hfinite
  cases hfinite

/-- A call for a sunset on an artboard of some width. -/
def sunsetOn (width : Value Float) : Call Float :=
  ⟨"generate", .value (.object [("userRequest", .text "sunset"),
    ("artboard", .object [("width", width), ("height", .real 600.0)])])⟩

/-- The reply is a text of its own, and no value. -/
def isBare (reply : Reply Float) : Bool :=
  match reply.content with
  | .plain _ => true
  | _ => false

theorem not_isBare_of_promised {reply : Reply Float} (h : Promised settings r reply) :
    isBare reply = false := by
  cases h <;> rfl

end Storyboard.Service
