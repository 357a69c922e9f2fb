/-
Bringing an exact result back into range. A sum or a product is formed
exactly and then written with as many fraction digits as its magnitude
leaves room for: `fit` drops the fewest digits that make the
coefficient fit, rounding to the nearest and a tie to the even
neighbour. When rounding carries a coefficient up to the limit itself,
one digit more is dropped (`settle`). A result whose integer part is
already too large has no amount at all.
-/
import Payroll.Decimal.Basic

namespace Payroll.Decimal

open scoped Power

/-- The amount of a rounded coefficient: as it stands when it is in
range, one digit shorter when it is not, none when there is no digit
to give up. -/
def settle (n : Int) (scale : Nat) : Option Decimal :=
  if h : n.natAbs < limit ∧ scale ≤ maxScale then
    some (of n scale h.1 h.2)
  else if scale = 0 then none
  else
    let m := quotient .toEven n 10
    if h : m.natAbs < limit ∧ scale - 1 ≤ maxScale then
      some (of m (scale - 1) h.1 h.2)
    else none

/-- How many digits the exact result `n / 10 ^ scale` has to give up:
the fewest after which the scale is allowed and the coefficient, cut
off, is in range. -/
def surplus (n : Int) (scale : Nat) : Option Nat :=
  (List.range (scale + 1)).find? fun k =>
    decide (scale ≤ maxScale + k) && decide (n.natAbs / 10 ^ k < limit)

/-- The amount nearest to `n / 10 ^ scale` among those with the most
fraction digits that fit, if its integer part fits. -/
def fit (n : Int) (scale : Nat) : Option Decimal :=
  match surplus n scale with
  | none => none
  | some k => settle (quotient .toEven n (10 ^ k)) (scale - k)

end Payroll.Decimal
