/-!
# Rounding to a decimal grid

Quotients and rationals rounded to the nearest integer, a tie going to the even neighbour.
-/

namespace Storyboard.Decimal

/-- The integer nearest to `num / den`; a tie goes to the even one. -/
def roundDiv (num den : Nat) : Nat :=
  if 2 * (num % den) < den then num / den
  else if den < 2 * (num % den) then num / den + 1
  else if num / den % 2 = 0 then num / den
  else num / den + 1

/-- The integer nearest to a rational; a tie goes to the even one. -/
def nearest (q : Rat) : Int :=
  if q.num < 0 then -(roundDiv q.num.natAbs q.den : Int) else roundDiv q.num.natAbs q.den

/-- A rational counted in units of `10 ^ -places`, rounded. -/
def atPlaces (places : Nat) (q : Rat) : Int := nearest (q * (Nat.pow 10 places : Nat))

/-- The decimal digits of a natural number, most significant first. -/
def digits (n : Nat) : List Char := Nat.toDigits 10 n

/-- A count of hundredths as a decimal numeral, without zeros or a point at its end. -/
def hundredths (n : Int) : String :=
  let whole := digits (n.natAbs / 100)
  let tens := n.natAbs / 10 % 10
  let units := n.natAbs % 10
  let places :=
    if units ≠ 0 then '.' :: (digits tens ++ digits units)
    else if tens ≠ 0 then '.' :: digits tens
    else []
  String.ofList ((if n < 0 then ['-'] else []) ++ whole ++ places)

end Storyboard.Decimal
