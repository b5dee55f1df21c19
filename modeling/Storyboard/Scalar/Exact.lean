import Storyboard.Scalar
/-!
# Exact scalars

Rational numbers as scalars. Every operation is exact, division by zero gives zero, and the
circular functions are the sums of the first terms of their series.
-/

namespace Storyboard

/-- The sum of `terms` terms of an alternating series that starts with `term`, the `k`-th of which
is `x ^ 2 / (k * (k + 1))` times the one before, with `k` rising by two. -/
def alternating (x : Rat) : Nat → Nat → Rat → Rat
  | 0, _, _ => 0
  | terms + 1, k, term =>
    term + alternating x terms (k + 2) (-(term * x * x / ((k * (k + 1) : Nat) : Rat)))

instance : Scalar Rat where
  decLt := inferInstance
  decLe := inferInstance
  ofInt n := n
  ofDecimal negative digits exponent := scaled negative 10 digits exponent
  toRat? := some
  square x := x * x
  sin x := alternating x 32 2 x
  cos x := alternating x 32 1 1
  numeral x := if x.den = 1 then toString x.num else toString x.num ++ "/" ++ toString x.den

end Storyboard
