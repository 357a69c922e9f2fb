/-
Numbers in double precision, as data formats carry them: a mantissa
below 2^53 times a power of two with exponent at least -1074.

`nearest` is the double of a ratio, a tie going to the even mantissa.
`shortest` goes the other way: of all decimal numbers that lie nearer to
a double than to its neighbours, it takes one with the fewest digits,
of those the nearest, and of two that are equally near the larger. The
grids of decimal numbers are tried from the coarsest on. If a point of a
grid is near enough at all, then so is one of the two that enclose the
double, so only these are looked at.
-/
import Payroll.Decimal.Quotient

namespace Payroll

open scoped Power

/-- The number `mantissa * 2 ^ exponent`. -/
structure Double where
  mantissa : Nat
  exponent : Int
deriving DecidableEq

namespace Double

/-- The least exponent. -/
def minExponent : Int := -1074

def zero : Double := { mantissa := 0, exponent := minExponent }

/-- Whether a double is below 2^1024. -/
def isFinite (x : Double) : Bool := x.exponent ≤ 971

-- =============================================================== rounding

/-- The numerator and denominator of `n / d / 2 ^ e`. -/
def shift (n d : Nat) (e : Int) : Nat × Nat :=
  (n * 2 ^ (-e).toNat, d * 2 ^ e.toNat)

/-- The double nearest to `n / d`. The difference of the binary lengths
tells its exponent up to one place. -/
def nearest (n d : Nat) : Double :=
  if n = 0 then zero
  else
    let guess : Int := (n.log2 : Int) - d.log2 - 53
    let (high, low) := shift n d guess
    let tight := if 2 ^ (53 : Nat) * low ≤ high then guess + 1 else guess
    let e := max minExponent tight
    let (high, low) := shift n d e
    let m := (Decimal.quotient .toEven high low).toNat
    if m = 2 ^ (53 : Nat) then { mantissa := 2 ^ (52 : Nat), exponent := e + 1 }
    else { mantissa := m, exponent := e }

/-- The double nearest to `n / d * 2 ^ e`. -/
def nearestScaled (n d : Nat) (e : Int) : Double :=
  nearest (n * 2 ^ e.toNat) (d * 2 ^ (-e).toNat)

def mul (x y : Double) : Double :=
  nearestScaled (x.mantissa * y.mantissa) 1 (x.exponent + y.exponent)

/-- The quotient by a double that is not zero. -/
def div (x y : Double) : Double :=
  nearestScaled x.mantissa y.mantissa (x.exponent - y.exponent)

-- ======================================================== shortest digits

/-- A point of the grid of multiples of `10 ^ grid` that lies nearer to
`x` than to any other double. A half-way point counts as near to an even
mantissa. Distances are measured in quarters of the last place of the
mantissa; below a power of two the next double is closer. -/
def gridPoint? (x : Double) (grid : Int) : Option Nat :=
  let point := 10 ^ grid.toNat * 2 ^ (2 - x.exponent).toNat
  let quarter := 2 ^ (x.exponent - 2).toNat * 10 ^ (-grid).toNat
  let value := 4 * x.mantissa * quarter
  let isPower := x.mantissa = 2 ^ (52 : Nat) ∧ minExponent < x.exponent
  let least := value - (if isPower then 1 else 2) * quarter
  let most := value + 2 * quarter
  let isNear := fun (c : Nat) =>
    if x.mantissa % 2 = 0 then
      decide (least ≤ c * point) && decide (c * point ≤ most)
    else decide (least < c * point) && decide (c * point < most)
  let below := value / point
  let above := below + 1
  if isNear below && isNear above then
    some (if value - below * point < above * point - value then below
      else above)
  else if isNear below then some below
  else if isNear above then some above
  else none

/-- The digits of the shortest decimal number for a double, and the power
of ten that they are multiplied by. Seventeen digits are always
enough. -/
def shortest (x : Double) : Nat × Int :=
  if x.mantissa = 0 then (0, 0)
  else
    let coarsest := (x.exponent + 53) * 30103 / 100000 + 2
    ((List.range 24).findSome? fun (k : Nat) =>
      (x.gridPoint? (coarsest - (k : Int))).map
        (·, coarsest - (k : Int))).getD (0, 0)

end Double

end Payroll
