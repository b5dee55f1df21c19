import Storyboard.Scalar
/-!
# Values

What travels between the editor and the compiler: nulls, truth values, numbers, texts, lists and
objects whose fields keep their order. Lookup, truth, numeric reading and equality of values.
-/

namespace Storyboard

/-- A value of the wire format. Whole numbers are kept apart from scalars and are unbounded. -/
inductive Value (α : Type) where
  | null
  | bool (b : Bool)
  | int (n : Int)
  | real (x : α)
  | text (s : String)
  | list (items : List (Value α))
  | object (fields : List (String × Value α))
  deriving Inhabited

/-- The fields of an object, in order. -/
abbrev Fields (α : Type) := List (String × Value α)

namespace Fields

variable {α : Type}

/-- The value of a field. -/
def get? (fields : Fields α) (name : String) : Option (Value α) :=
  match fields with
  | [] => none
  | (key, value) :: rest => if key = name then some value else get? rest name

/-- Gives a field a value: in its place when it is there, at the end when it is not. -/
def set (fields : Fields α) (name : String) (value : Value α) : Fields α :=
  match fields with
  | [] => [(name, value)]
  | (key, old) :: rest =>
    if key = name then (key, value) :: rest else (key, old) :: set rest name value

/-- Gives fields the values of others. -/
def setAll (fields others : Fields α) : Fields α :=
  others.foldl (fun fs (name, value) => set fs name value) fields

@[simp] theorem get?_nil (name : String) : get? ([] : Fields α) name = none := rfl

@[simp] theorem get?_cons (key name : String) (value : Value α) (rest : Fields α) :
    get? ((key, value) :: rest) name = if key = name then some value else get? rest name :=
  rfl

theorem get?_set (fields : Fields α) (name other : String) (value : Value α) :
    get? (set fields name value) other =
      if name = other then some value else get? fields other := by
  induction fields with
  | nil => rfl
  | cons head rest ih =>
    obtain ⟨key, old⟩ := head
    by_cases hk : key = name
    · subst hk
      by_cases ho : key = other <;> simp [set, ho]
    · by_cases ho : key = other
      · subst ho
        simp [set, hk, Ne.symm hk]
      · simp [set, hk, ho, ih]

end Fields

/-- What a value is, for messages. -/
inductive Kind where
  | null | bool | int | real | text | list | object
  deriving DecidableEq, Repr

namespace Value

variable {α : Type}

def kind : Value α → Kind
  | null => .null
  | bool _ => .bool
  | int _ => .int
  | real _ => .real
  | text _ => .text
  | list _ => .list
  | object _ => .object

/-- A field of an object; other values have none. -/
def field? (value : Value α) (name : String) : Option (Value α) :=
  match value with
  | object fields => Fields.get? fields name
  | _ => none

def text? : Value α → Option String
  | text s => some s
  | _ => none

def fields? : Value α → Option (Fields α)
  | object fields => some fields
  | _ => none

def items? : Value α → Option (List (Value α))
  | list items => some items
  | _ => none

/-- What a value is made of: the items of a list, the characters of a text, the names of an
object's fields. -/
def elements? : Value α → Option (List (Value α))
  | list items => some items
  | text s => some (s.toList.map fun c => text c.toString)
  | object fields => some (fields.map fun (name, _) => text name)
  | _ => none

/-- Lists and objects cannot be members of a set. -/
def isContainer : Value α → Bool
  | list _ | object _ => true
  | _ => false

/-- A text, or nothing. -/
def ofText? : Option String → Value α
  | some s => text s
  | none => null

/-- A scalar, or nothing. -/
def ofScalar? : Option α → Value α
  | some x => real x
  | none => null

variable [Scalar α]

/-- Empty and zero values are false. -/
def truthy : Value α → Bool
  | null => false
  | bool b => b
  | int n => n ≠ 0
  | real x => !(Scalar.isZero x)
  | text s => s ≠ ""
  | list items => !items.isEmpty
  | object fields => !fields.isEmpty

/-- The scalar nearest to a number. Truth values are no numbers here. -/
def scalar? : Value α → Option α
  | int n => some (Scalar.ofInt n)
  | real x => some x
  | _ => none

/-- The exact value of a number or truth value. -/
def toRat? : Value α → Option Rat
  | bool b => some (if b then 1 else 0)
  | int n => some n
  | real x => Scalar.toRat? x
  | _ => none

/-- The infinite and undefined scalars, by name. -/
def sameLimit (x y : α) : Bool :=
  Scalar.text x == Scalar.text y

mutual

/-- Equality by content: numbers and truth values by their exact value, an undefined scalar with
itself, lists item by item, objects field by field. -/
def same : Value α → Value α → Bool
  | null, null => true
  | text a, text b => a == b
  | list a, list b => sameItems a b
  | object a, object b => sameFields a b
  | bool a, bool b => a == b
  | bool a, int b => (if a then 1 else 0) == b
  | int a, bool b => a == (if b then 1 else 0)
  | int a, int b => a == b
  | real a, real b =>
    match Scalar.toRat? a, Scalar.toRat? b with
    | some p, some q => p == q
    | none, none => sameLimit a b
    | _, _ => false
  | real a, int b => Scalar.toRat? a == some (b : Rat)
  | int a, real b => Scalar.toRat? b == some (a : Rat)
  | real a, bool b => Scalar.toRat? a == some (if b then 1 else 0)
  | bool a, real b => Scalar.toRat? b == some (if a then 1 else 0)
  | _, _ => false

def sameItems : List (Value α) → List (Value α) → Bool
  | [], [] => true
  | a :: as, b :: bs => same a b && sameItems as bs
  | _, _ => false

def sameFields : List (String × Value α) → List (String × Value α) → Bool
  | [], [] => true
  | (k, a) :: as, (l, b) :: bs => k == l && same a b && sameFields as bs
  | _, _ => false

end

/-- An undefined scalar, which no set contains. -/
def isUndefined : Value α → Bool
  | real x => Scalar.isUndefined x
  | _ => false

/-- Membership in a set of values. -/
def isIn (value : Value α) (set : List (Value α)) : Bool :=
  !value.isUndefined && set.any (value.same ·)

end Value

end Storyboard
