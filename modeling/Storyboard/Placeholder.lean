import Storyboard.Value.Number
import Storyboard.Text.Phrase
/-!
# Placeholders

The ids of new elements, which the editor replaces by its own. A text is read as a row of
pieces, each a character or a placeholder; numbering a text anew changes the placeholders only.
-/

namespace Storyboard

namespace Placeholder

open Text (isDigit digitValue?)

def opening : List Char := "\x7b\x7bNEW_ID_".toList
def closing : List Char := "\x7d\x7d".toList

/-- The placeholder of a number. -/
def ofInt (n : Int) : List Char := opening ++ (toString n).toList ++ closing

/-- The id of the `n`-th new element. -/
def id (n : Nat) : String := String.ofList (ofInt n)

/-- A part of a text. -/
inductive Piece where
  | char (c : Char)
  /-- A placeholder, by the digits of its number. -/
  | mark (digits : List Char)
  deriving DecidableEq, Repr

/-- The digits of the placeholder at the start of a text, and what follows it. -/
def at? (cs : List Char) : Option (List Char × List Char) :=
  match Text.after? opening cs with
  | none => none
  | some body =>
    match body.takeWhile isDigit with
    | [] => none
    | d :: ds =>
      match Text.after? closing (body.dropWhile isDigit) with
      | none => none
      | some rest => some (d :: ds, rest)

theorem length_after? {p cs rest : List Char} (h : Text.after? p cs = some rest) :
    cs.length = p.length + rest.length := by
  induction p generalizing cs with
  | nil =>
    simp only [Text.after?, Option.some.injEq] at h
    simp [h]
  | cons c p ih =>
    cases cs with
    | nil => simp [Text.after?] at h
    | cons d cs =>
      simp only [Text.after?] at h
      split at h
      · simp [ih h]
        omega
      · simp at h

theorem length_lt_of_at? {cs ds rest : List Char} (h : at? cs = some (ds, rest)) :
    rest.length < cs.length := by
  unfold at? at h
  split at h
  · simp at h
  · rename_i body hb
    split at h
    · simp at h
    · split at h
      · simp at h
      · rename_i rest' hr
        simp only [Option.some.injEq, Prod.mk.injEq] at h
        have hbody := length_after? hb
        have hrest := length_after? hr
        have hdrop : (body.dropWhile isDigit).length ≤ body.length :=
          (List.dropWhile_sublist _).length_le
        have hopen : opening.length = 9 := by decide
        have : rest'.length = rest.length := by rw [h.2]
        omega

/-- The pieces of a text. -/
def pieces (cs : List Char) : List Piece :=
  match _h : at? cs with
  | some (ds, rest) => .mark ds :: pieces rest
  | none =>
    match cs with
    | [] => []
    | c :: rest => .char c :: pieces rest
termination_by cs.length
decreasing_by
  · exact length_lt_of_at? (by assumption)
  · simp

/-- The number that the digits of a placeholder denote. -/
def number (ds : List Char) : Except Fault Nat :=
  if Fault.digitLimit < ds.length then .error (.tooManyDigits (some ds.length))
  else .ok (Text.valueOf (ds.filterMap digitValue?))

/-- The numbers of the placeholders among some pieces. -/
def numbers : List Piece → Except Fault (List Nat)
  | [] => .ok []
  | .char _ :: rest => numbers rest
  | .mark ds :: rest => do
    let n ← number ds
    let ns ← numbers rest
    return n :: ns

/-- The placeholder of a number that can be written. -/
def write (n : Int) : Except Fault (List Char) :=
  if Fault.digitLimit < (Decimal.digits n.natAbs).length then .error (.tooManyDigits none)
  else .ok (ofInt n)

/-- The numbers that can be written start below this one. -/
def ceiling : Nat := Nat.pow 10 Fault.digitLimit

/-- Gives out the numbers after `n` up to `last`, all of which have to be writable. A fault comes
with the first one that is not. -/
def supply (n last : Nat) : Except (Fault × Nat) Unit :=
  if n < last ∧ ceiling ≤ last then .error (.tooManyDigits none, max (n + 1) ceiling) else .ok ()

/-- The text of some pieces, each placeholder moved on by `offset`. -/
def shift (offset : Int) : List Piece → Except Fault (List Char)
  | [] => .ok []
  | .char c :: rest => (shift offset rest).map (c :: ·)
  | .mark ds :: rest => do
    let n ← number ds
    let mark ← write (n + offset)
    let rest ← shift offset rest
    return mark ++ rest

def shiftText (offset : Int) (s : String) : Except Fault String :=
  (shift offset (pieces s.toList)).map String.ofList

def highestIn (s : String) : Except Fault Nat :=
  (numbers (pieces s.toList)).map fun ns => ns.foldl max 0

variable {α : Type}

mutual

/-- The highest number of a placeholder in the texts of a value; zero without any. -/
def highest : Value α → Except Fault Nat
  | .text s => highestIn s
  | .list items => highestItem items
  | .object fields => highestField fields
  | _ => .ok 0

def highestItem : List (Value α) → Except Fault Nat
  | [] => .ok 0
  | v :: rest => do
    let n ← highest v
    let m ← highestItem rest
    return max n m

def highestField : List (String × Value α) → Except Fault Nat
  | [] => .ok 0
  | (_, v) :: rest => do
    let n ← highest v
    let m ← highestField rest
    return max n m

end

mutual

/-- Moves every placeholder in the texts of a value on by `offset`; field names stay. -/
def shiftAll (offset : Int) : Value α → Except Fault (Value α)
  | .text s => (shiftText offset s).map .text
  | .list items => (shiftItems offset items).map .list
  | .object fields => (shiftFields offset fields).map .object
  | v => .ok v

def shiftItems (offset : Int) : List (Value α) → Except Fault (List (Value α))
  | [] => .ok []
  | v :: rest => do
    let v ← shiftAll offset v
    let rest ← shiftItems offset rest
    return v :: rest

def shiftFields (offset : Int) :
    List (String × Value α) → Except Fault (List (String × Value α))
  | [] => .ok []
  | (name, v) :: rest => do
    let v ← shiftAll offset v
    let rest ← shiftFields offset rest
    return (name, v) :: rest

end

/-- Numbers a value anew; an offset of zero leaves it as it is. -/
def renumber (offset : Int) (v : Value α) : Except Fault (Value α) :=
  if offset = 0 then .ok v else shiftAll offset v

end Placeholder

end Storyboard
