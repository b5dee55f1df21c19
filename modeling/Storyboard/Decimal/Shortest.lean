import Storyboard.Decimal.Rounding
/-!
# Shortest decimals

The fewest decimal digits that still read back to a given binary number, found on the
interval of reals that round to it, and their layout as a numeral.
-/

namespace Storyboard.Decimal

/-- The reals that round to `significand * 2 ^ exponent`, in quarters of its last place; the
ends belong to the interval when the significand is even. -/
structure Basin where
  significand : Nat
  exponent : Int
  /-- The neighbour below is half a place away: the significand is a power of two. -/
  narrow : Bool

namespace Basin

def centre (b : Basin) : Nat := 4 * b.significand
def lower (b : Basin) : Nat := b.centre - (if b.narrow then 1 else 2)
def upper (b : Basin) : Nat := b.centre + 2
def closed (b : Basin) : Bool := b.significand % 2 == 0

def raise (base : Nat) (e : Int) : Nat := base.pow e.toNat

/-- The multiple of `10 ^ p` in the interval that is nearest to its centre, if there is one. -/
def pointAt? (b : Basin) (p : Int) : Option Nat :=
  let quarter := b.exponent - 2
  let scale := raise 2 quarter * raise 10 (-p)
  let unit := raise 2 (-quarter) * raise 10 p
  let target := b.centre * scale
  let below := target / unit
  let reaches := if b.closed then b.lower * scale ≤ below * unit else b.lower * scale < below * unit
  let above := (below + 1) * unit
  let stays := if b.closed then above ≤ b.upper * scale else above < b.upper * scale
  if reaches then
    if stays then
      let gapBelow := target - below * unit
      let gapAbove := above - target
      if gapBelow < gapAbove then some below
      else if gapAbove < gapBelow then some (below + 1)
      else if below % 2 = 0 then some below else some (below + 1)
    else some below
  else if stays then some (below + 1)
  else none

/-- The power of ten of the first significant digit. -/
def magnitude (b : Basin) : Int :=
  let num := b.significand * raise 2 b.exponent
  let den := raise 2 (-b.exponent)
  if den ≤ num then ((digits (num / den)).length : Int) - 1
  else -((digits (den / num)).length : Int)

/-- The coarsest decimal grid with a point in the interval, tried from `p` downwards. -/
def search (b : Basin) (p : Int) : Nat → Nat × Int
  | 0 => (b.centre, p)
  | fuel + 1 =>
    match b.pointAt? p with
    | some d => (d, p)
    | none => search b (p - 1) fuel

/-- Digits and power of ten of the shortest decimal in the interval; seventeen digits suffice.
The coarsest grid can give ten, when the number lies just below a power of ten: that is one of
the next power. -/
def shortest (b : Basin) : Nat × Int :=
  match b.search b.magnitude 17 with
  | (10, p) => (1, p + 1)
  | hit => hit

end Basin

/-- Layout of `digits * 10 ^ exponent`: positional from `10 ^ -4` up to `10 ^ 16`, with an
exponent of at least two digits beyond, and always with a point or an exponent. -/
def layOut (n : Nat) (exponent : Int) : String :=
  let ds := digits n
  let point := (ds.length : Int) + exponent
  if -4 < point ∧ point ≤ 16 then
    if point ≤ 0 then
      String.ofList ("0.".toList ++ List.replicate (-point).toNat '0' ++ ds)
    else if ds.length ≤ point.toNat then
      String.ofList (ds ++ List.replicate (point.toNat - ds.length) '0' ++ ".0".toList)
    else
      String.ofList (ds.take point.toNat ++ '.' :: ds.drop point.toNat)
  else
    let power := point - 1
    let powerDigits := digits power.natAbs
    let padded := if powerDigits.length < 2 then '0' :: powerDigits else powerDigits
    let mantissa := match ds with
      | d :: e :: rest => d :: '.' :: e :: rest
      | ds => ds
    String.ofList (mantissa ++ 'e' :: (if power < 0 then '-' else '+') :: padded)

end Storyboard.Decimal
