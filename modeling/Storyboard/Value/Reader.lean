import Storyboard.Value.Literal
import Storyboard.Text.Numeral
/-!
# Reading values

The wire text of a value. Numbers with a point or an exponent are scalars, all others integers;
the names of infinite and undefined numbers are read too; of equal field names the last value
counts, in the first place.
-/

namespace Storyboard.Value.Reader

variable {α : Type} [Scalar α]

def isGap (c : Char) : Bool := c == ' ' || c == '\t' || c == '\n' || c == '\r'

def skipGap (cs : List Char) : List Char := cs.dropWhile isGap

def hexValue? (c : Char) : Option Nat :=
  if c.isDigit then some (c.toNat - 48)
  else if 'a' ≤ c ∧ c ≤ 'f' then some (c.toNat - 87)
  else if 'A' ≤ c ∧ c ≤ 'F' then some (c.toNat - 55)
  else none

/-- Four hexadecimal digits. -/
def unit? : List Char → Option (Nat × List Char)
  | a :: b :: c :: d :: rest => do
    let a ← hexValue? a
    let b ← hexValue? b
    let c ← hexValue? c
    let d ← hexValue? d
    some (((a * 16 + b) * 16 + c) * 16 + d, rest)
  | _ => none

/-- The character that `\u` and its digits stand for, two of them for a surrogate pair. -/
def escaped? (cs : List Char) : Option (Char × List Char) := do
  let (high, rest) ← unit? cs
  let lone := if 0xD800 ≤ high ∧ high < 0xE000 then Char.ofNat 0xFFFD else Char.ofNat high
  if 0xD800 ≤ high ∧ high < 0xDC00 then
    match rest with
    | '\\' :: 'u' :: after =>
      match unit? after with
      | some (low, after) =>
        if 0xDC00 ≤ low ∧ low < 0xE000 then
          some (Char.ofNat (0x10000 + (high - 0xD800) * 0x400 + (low - 0xDC00)), after)
        else some (lone, rest)
      | none => some (lone, rest)
    | _ => some (lone, rest)
  else some (lone, rest)

/-- The characters up to the closing quote; `seen` holds those read, last first. -/
def quoted? (fuel : Nat) (seen : List Char) (cs : List Char) : Option (String × List Char) :=
  match fuel, cs with
  | _, [] => none
  | 0, _ => none
  | _ + 1, '"' :: rest => some (String.ofList seen.reverse, rest)
  | fuel + 1, '\\' :: c :: rest =>
    match c with
    | '"' | '\\' | '/' => quoted? fuel (c :: seen) rest
    | 'b' => quoted? fuel ('\x08' :: seen) rest
    | 'f' => quoted? fuel ('\x0c' :: seen) rest
    | 'n' => quoted? fuel ('\n' :: seen) rest
    | 'r' => quoted? fuel ('\r' :: seen) rest
    | 't' => quoted? fuel ('\t' :: seen) rest
    | 'u' =>
      match escaped? rest with
      | some (c, rest) => quoted? fuel (c :: seen) rest
      | none => none
    | _ => none
  | fuel + 1, c :: rest =>
    if c.toNat < 32 ∨ c = '\\' then none else quoted? fuel (c :: seen) rest

/-- A number without leading zeros. -/
def number? (cs : List Char) : Option (Value α × List Char) :=
  let (negative, body) := match cs with
    | '-' :: rest => (true, rest)
    | cs => (false, cs)
  let style := Text.plainStyle
  match body with
  | '0' :: rest => finish style negative [0] rest
  | body =>
    match style.run false body with
    | ([], _) => none
    | (whole, rest) => finish style negative whole rest
where
  /-- The fraction and the exponent are optional and are left alone when they have no digits. -/
  finish (style : Text.NumeralStyle) (negative : Bool) (whole : List Nat) (rest : List Char) :
      Option (Value α × List Char) :=
    let (fraction, rest) := match rest with
      | '.' :: after =>
        match style.run false after with
        | ([], _) => ([], rest)
        | (ds, after) => (ds, after)
      | rest => ([], rest)
    let (power, rest) := match rest with
      | c :: after =>
        if c == 'e' || c == 'E' then
          let (down, digits) := Text.takeSign after
          match style.run false digits with
          | ([], _) => (none, rest)
          | (ds, after) =>
            (some (if down then -(Text.valueOf ds : Int) else Text.valueOf ds), after)
        else (none, rest)
      | rest => (none, rest)
    if fraction.isEmpty && power.isNone then
      let n := Text.valueOf whole
      some (.int (if negative then -(n : Int) else n), rest)
    else
      some (.real (Scalar.ofDecimal negative (Text.valueOf (whole ++ fraction))
        (power.getD 0 - fraction.length)), rest)

def words : List (List Char × Value α) :=
  [("null".toList, .null), ("true".toList, .bool true), ("false".toList, .bool false),
   ("NaN".toList, .real Scalar.undefined), ("Infinity".toList, .real Scalar.infinite),
   ("-Infinity".toList, .real (-Scalar.infinite))]

def after? (word cs : List Char) : Option (List Char) :=
  if word.isPrefixOf cs then some (cs.drop word.length) else none

mutual

/-- One value at the start of a text, and what follows it. -/
def value? (fuel : Nat) (cs : List Char) : Option (Value α × List Char) :=
  match fuel with
  | 0 => none
  | fuel + 1 =>
    match cs with
    | '"' :: rest => (quoted? rest.length [] rest).map fun (s, rest) => (.text s, rest)
    | '[' :: rest =>
      match skipGap rest with
      | ']' :: rest => some (.list [], rest)
      | rest => (items? fuel [] rest).map fun (vs, rest) => (.list vs, rest)
    | '\x7b' :: rest =>
      match skipGap rest with
      | '\x7d' :: rest => some (.object [], rest)
      | rest => (fields? fuel [] rest).map fun (fs, rest) => (.object fs, rest)
    | cs =>
      match words.findSome? fun (word, v) => (after? word cs).map (v, ·) with
      | some answer => some answer
      | none => number? cs

/-- The items of a list that has some, up to its bracket; `seen` holds those read, last first. -/
def items? (fuel : Nat) (seen : List (Value α)) (cs : List Char) :
    Option (List (Value α) × List Char) :=
  match fuel with
  | 0 => none
  | fuel + 1 =>
    match value? fuel cs with
    | none => none
    | some (v, rest) =>
      match skipGap rest with
      | ',' :: rest => items? fuel (v :: seen) (skipGap rest)
      | ']' :: rest => some ((v :: seen).reverse, rest)
      | _ => none

/-- The fields of an object that has some, up to its brace; `seen` holds those read. -/
def fields? (fuel : Nat) (seen : Fields α) (cs : List Char) : Option (Fields α × List Char) :=
  match fuel with
  | 0 => none
  | fuel + 1 =>
    match cs with
    | '"' :: rest =>
      match quoted? rest.length [] rest with
      | none => none
      | some (name, rest) =>
        match skipGap rest with
        | ':' :: rest =>
          match value? fuel (skipGap rest) with
          | none => none
          | some (v, rest) =>
            let seen := Fields.set seen name v
            match skipGap rest with
            | ',' :: rest => fields? fuel seen (skipGap rest)
            | '\x7d' :: rest => some (seen, rest)
            | _ => none
        | _ => none
    | _ => none

end

/-- The value that a whole text denotes. -/
def read? (s : String) : Option (Value α) :=
  let cs := match s.toList with
    | '\ufeff' :: rest => rest
    | cs => cs
  match value? (cs.length + 1) (skipGap cs) with
  | some (v, rest) => if (skipGap rest).isEmpty then some v else none
  | none => none

mutual

/-- Some integer in a value has more digits than integers are read from. -/
def hasLongInteger : Value α → Bool
  | .int n => decide (Nat.pow 10 Fault.digitLimit ≤ n.natAbs)
  | .list items => haveLongInteger items
  | .object fields => fieldsHaveLongInteger fields
  | _ => false

def haveLongInteger : List (Value α) → Bool
  | [] => false
  | v :: rest => hasLongInteger v || haveLongInteger rest

def fieldsHaveLongInteger : List (String × Value α) → Bool
  | [] => false
  | (_, v) :: rest => hasLongInteger v || fieldsHaveLongInteger rest

end

end Storyboard.Value.Reader
