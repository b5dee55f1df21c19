import Storyboard.Request
/-!
# Schemas

Descriptions of values by their types, fields, names and limits. Checking a value against a
schema collects every breach, with the place in the value where it is.
-/

namespace Storyboard

/-- The types that schemas tell apart. -/
inductive SchemaType where
  | object | array | string | number | boolean | null
  deriving DecidableEq, Repr

/-- A description of values. What a rule does not speak about satisfies it. -/
inductive Schema (α : Type) where
  /-- Every rule holds; breaches come in the order of the rules. -/
  | all (rules : List (Schema α))
  | type (types : List SchemaType)
  | required (names : List String)
  | properties (fields : List (String × Schema α))
  | items (item : Schema α)
  | oneOf (names : List String)
  | nonEmpty
  | minimum (low : Value α)
  | above (low : Value α)
  | maximum (high : Value α)
  /-- A rule for the values that satisfy a condition. -/
  | given (condition consequence : Schema α)

/-- How a value breaks a rule. -/
inductive BreachKind (α : Type) where
  | wrongType (types : List SchemaType)
  | missing (name : String)
  | unlisted (names : List String)
  | empty
  | below (low : Value α)
  | notAbove (low : Value α)
  | beyond (high : Value α)

/-- A broken rule: the part of the value that breaks it, and where that is. -/
structure Breach (α : Type) where
  path : List Step
  value : Value α
  kind : BreachKind α

namespace SchemaType

def name : SchemaType → String
  | object => "object"
  | array => "array"
  | string => "string"
  | number => "number"
  | boolean => "boolean"
  | null => "null"

/-- The type of a value. Truth values are no numbers. -/
def ofKind : Kind → SchemaType
  | .null => null
  | .bool => boolean
  | .int | .real => number
  | .text => string
  | .list => array
  | .object => object

end SchemaType

namespace Value

variable {α : Type} [Scalar α]

/-- Comparison of numbers, exact where both are finite; anything else compares as false. -/
def compares (exactly : Rat → Rat → Bool) (nearly : α → α → Bool) (a b : Value α) : Bool :=
  if a.kind = .bool ∨ b.kind = .bool then false
  else match a.toRat?, b.toRat? with
    | some p, some q => exactly p q
    | _, _ =>
      match a.scalar?, b.scalar? with
      | some x, some y => nearly x y
      | _, _ => false

def less (a b : Value α) : Bool :=
  compares (fun p q => decide (p < q)) (fun x y => decide (x < y)) a b

def atMost (a b : Value α) : Bool :=
  compares (fun p q => decide (p ≤ q)) (fun x y => decide (x ≤ y)) a b

end Value

namespace BreachKind

variable {α : Type} [Scalar α]

/-- The wording of a breach by a value. -/
def message (value : Value α) : BreachKind α → String
  | wrongType types => value.literal ++ " is not of type "
      ++ ", ".intercalate (types.map fun t => Text.quote t.name)
  | missing name => Text.quote name ++ " is a required property"
  | unlisted names => value.literal ++ " is not one of "
      ++ (Value.list (names.map .text) : Value α).literal
  | empty => value.literal ++ " should be non-empty"
  | below low => value.literal ++ " is less than the minimum of " ++ low.literal
  | notAbove low => value.literal ++ " is less than or equal to the minimum of " ++ low.literal
  | beyond high => value.literal ++ " is greater than the maximum of " ++ high.literal

end BreachKind

namespace Breach

variable {α : Type}

def under (step : Step) (b : Breach α) : Breach α := { b with path := step :: b.path }

def message [Scalar α] (b : Breach α) : String := b.kind.message b.value

/-- The place of a breach: its steps joined by points, or a sign for the whole value. -/
def place (b : Breach α) : String :=
  match b.path with
  | [] => "$"
  | path => ".".intercalate (path.map fun
      | .name s => s
      | .index n => toString n)

end Breach

namespace Schema

variable {α : Type} [Scalar α]

def here (value : Value α) (broken : Bool) (kind : BreachKind α) : List (Breach α) :=
  if broken then [⟨[], value, kind⟩] else []

mutual

/-- All breaches of a schema by a value. -/
def breaches : Schema α → Value α → List (Breach α)
  | all rules, v => breachesOfAll rules v
  | type types, v => here v (!types.contains (.ofKind v.kind)) (.wrongType types)
  | required names, v =>
    match v with
    | .object fields =>
      (names.filter fun name => (Fields.get? fields name).isNone).map fun name =>
        ⟨[], v, .missing name⟩
    | _ => []
  | properties fields, v => breachesOfFields fields v
  | items item, v =>
    match v with
    | .list vs => vs.zipIdx.flatMap fun (v, k) => (breaches item v).map (Breach.under (.index k))
    | _ => []
  | oneOf names, v =>
    here v (!((v.text?.map names.contains).getD false)) (.unlisted names)
  | nonEmpty, v => here v (v.text? == some "") .empty
  | minimum low, v => here v (v.less low) (.below low)
  | above low, v => here v (v.atMost low) (.notAbove low)
  | maximum high, v => here v (high.less v) (.beyond high)
  | given condition consequence, v =>
    if (breaches condition v).isEmpty then breaches consequence v else []

def breachesOfAll : List (Schema α) → Value α → List (Breach α)
  | [], _ => []
  | s :: rest, v => breaches s v ++ breachesOfAll rest v

/-- Breaches by the fields that a value has. -/
def breachesOfFields : List (String × Schema α) → Value α → List (Breach α)
  | [], _ => []
  | (name, s) :: rest, v =>
    (match v.field? name with
      | some field => (breaches s field).map (Breach.under (.name name))
      | none => [])
      ++ breachesOfFields rest v

end

/-- A value satisfies a schema. -/
def accepts (s : Schema α) (v : Value α) : Bool := (s.breaches v).isEmpty

end Schema

end Storyboard
