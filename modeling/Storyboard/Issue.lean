import Storyboard.Value
/-!
# Issues

What is wrong with a value, and where. Checks of the parts of a value are joined so that every
issue is reported, in the order of the parts.
-/

namespace Storyboard

/-- A step of a path into a value. -/
inductive Step where
  | name (s : String)
  | index (n : Nat)
  deriving DecidableEq, Repr

/-- What is wrong with a part of a request. -/
inductive IssueKind where
  | missing | notText | notNumber | notNumeral | notPositive | notRecord | notSource | notList
  | malformed
  deriving DecidableEq, Repr

/-- Something wrong, and where. -/
structure Issue where
  path : List Step
  kind : IssueKind
  deriving DecidableEq, Repr

namespace Issue

def under (step : Step) (issue : Issue) : Issue := { issue with path := step :: issue.path }

end Issue

/-- A result, or all that stands in its way. -/
inductive Checked (β : Type) where
  | valid (b : β)
  | invalid (issues : List Issue)

namespace Checked

variable {α β γ : Type}

def issues : Checked β → List Issue
  | valid _ => []
  | invalid is => is

def map (f : β → γ) : Checked β → Checked γ
  | valid b => valid (f b)
  | invalid is => invalid is

/-- Applies a result to a result, or joins the issues of both. -/
def app (f : Checked (β → γ)) (x : Checked β) : Checked γ :=
  match f, x with
  | valid f, valid b => valid (f b)
  | f, x => invalid (f.issues ++ x.issues)

/-- The same result as part of something larger. -/
def under (step : Step) : Checked β → Checked β
  | valid b => valid b
  | invalid is => invalid (is.map (Issue.under step))

def issue (kind : IssueKind) : Checked β := invalid [⟨[], kind⟩]

/-- All results of a list, or all issues of its items. -/
def each (check : Value α → Checked β) (n : Nat) : List (Value α) → Checked (List β)
  | [] => valid []
  | v :: rest => (((check v).under (.index n)).map List.cons).app (each check (n + 1) rest)

end Checked

end Storyboard
