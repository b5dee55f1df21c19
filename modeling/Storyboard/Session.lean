import Storyboard.Composition
import Storyboard.Gate
import Storyboard.Generator
import Storyboard.Quality
/-!
# Sessions

A run of operations on one plan, one counter for new elements and a growing list of fragments.
-/

namespace Storyboard

/-- Where a session stands. -/
structure Session (α : Type) where
  plan : Plan α
  /-- The last number given out. -/
  issued : Nat
  fragments : List (Fragment α) := []

namespace Session

/-- An operation of a session. -/
inductive Op (α : Type) where
  | nextId
  | plan (request : Value α)
  | generate (g : Generator)
  /-- Generates with numbers of its own, from one on. -/
  | generateFresh (g : Generator)
  | gate
  | weather (origin : α × α) (parent : Option String)
  | compose
  | quality
  | drop (index : Int)

/-- What an operation answers. -/
inductive Reply (α : Type) where
  | id (s : String)
  | archetype (a : Archetype)
  | fragment (f : Option (Fragment α))
  | summary (s : Option String)
  | rejections (rs : List (List Rejection))
  | actions (as : List (Value α))
  | composition (c : Composition α)
  | assessment (a : Assessment)
  | count (n : Nat)

variable {α : Type} [Scalar α]

def append (s : Session α) (f? : Option (Fragment α)) : Session α :=
  { s with fragments := s.fragments ++ f?.toList }

/-- All fragments as they pass the gate, each with what was dropped. -/
def gateAll : List (Fragment α) → Except Fault (List (Fragment α × List Rejection))
  | [] => .ok []
  | f :: rest => do
    let passed ← Gate.passAll f.actions
    let later ← gateAll rest
    return ({ f with actions := passed.actions }, passed.rejections) :: later

/-- The place in a list that an index means; a negative one counts from the end. -/
def placeOf? (index : Int) (length : Nat) : Option Nat :=
  let place := if index < 0 then index + length else index
  if 0 ≤ place ∧ place < length then some place.toNat else none

/-- Carries out an operation. One that fails changes nothing, but for the numbers that it has
given out. -/
def step (settings : Settings α) (s : Session α) (op : Op α) :
    Session α × Except Refusal (Reply α) :=
  match op with
  | .nextId =>
    match Placeholder.supply s.issued (s.issued + 1) with
    | .error (f, n) => ({ s with issued := n }, .error (.fault f))
    | .ok () => ({ s with issued := s.issued + 1 }, .ok (.id (Placeholder.id (s.issued + 1))))
  | .plan request =>
    match Plan.ofValue settings request with
    | .ok p => ({ s with plan := p }, .ok (.archetype p.archetype))
    | .error e => (s, .error e)
  | .generate g =>
    match g.supplied s.plan s.issued with
    | .error (f, n) => ({ s with issued := n }, .error (.fault f))
    | .ok none => (s, .ok (.fragment none))
    | .ok (some d) =>
      ({ s.append (some d.fragment) with issued := d.issued }, .ok (.fragment (some d.fragment)))
  | .generateFresh g =>
    match g.run s.plan 0 with
    | .error f => (s, .error (.fault f))
    | .ok d? => (s.append (d?.map Draft.fragment), .ok (.summary (d?.map (·.summary))))
  | .gate =>
    match gateAll s.fragments with
    | .error f => (s, .error (.fault f))
    | .ok passed =>
      ({ s with fragments := passed.map (·.1) }, .ok (.rejections (passed.map (·.2))))
  | .weather origin parent =>
    let last := Weather.issued s.plan s.issued
    match Placeholder.supply s.issued last with
    | .error (f, n) => ({ s with issued := n }, .error (.fault f))
    | .ok () => ({ s with issued := last },
        .ok (.actions ((Weather.overlay s.plan s.issued parent origin).map Action.toValue)))
  | .compose =>
    match Composition.compose s.plan s.fragments s.issued with
    | .error (f, n) => ({ s with issued := n }, .error (.fault f))
    | .ok c => ({ s with issued := c.issued }, .ok (.composition c))
  | .quality =>
    (s, ((Quality.assess (.list (s.fragments.flatMap (·.actions))) (.list [])).map
      Reply.assessment).mapError .fault)
  | .drop index =>
    match placeOf? index s.fragments.length with
    | none => (s, .error (.fault .noSuchPlace))
    | some k =>
      let rest := s.fragments.eraseIdx k
      ({ s with fragments := rest }, .ok (.count rest.length))

/-- Carries out operations in order, each answer with the session after it. -/
def run (settings : Settings α) (s : Session α) :
    List (Op α) → List (Session α × Except Refusal (Reply α))
  | [] => []
  | op :: rest =>
    let done := step settings s op
    done :: run settings done.1 rest

end Session

end Storyboard
