/-
Sums, differences and products of amounts, and what happens when one of
them has no amount. `add?`, `sub?` and `mul?` say whether there is a
result; `add`, `sub`, `mul` and `sum` raise a `Fault` where there is
none, and a calculation that meets a fault stops there.

Zero is neutral in the spelling too: adding a zero, with whatever sign
and scale, returns the other operand as it is written. Other operands
whose sum is zero have no minus zero for a sum.
-/
import Payroll.Decimal.Fit

namespace Payroll.Decimal

open scoped Power

/-- An arithmetic operation that has no result. -/
inductive Fault where
  | additionOverflow
  | subtractionOverflow
  | multiplicationOverflow
  | divisionOverflow
  | divisionByZero
deriving DecidableEq

def Fault.message : Fault → String
  | .additionOverflow => "Addition overflowed"
  | .subtractionOverflow => "Subtraction overflowed"
  | .multiplicationOverflow => "Multiplication overflowed"
  | .divisionOverflow => "Division overflowed"
  | .divisionByZero => "Division by zero"

/-- An optional result as a computation that stops with `fault` when
there is none. -/
def orFault (fault : Fault) : Option Decimal → Except Fault Decimal
  | some a => .ok a
  | none => .error fault

-- ============================================================== addition

/-- The sum at the larger of the two scales, shortened if it does not
fit. -/
def add? (a b : Decimal) : Option Decimal :=
  if a.isZero then some b
  else if b.isZero then some a
  else
    let scale := max a.scale b.scale
    fit (a.coefficient * 10 ^ (scale - a.scale)
      + b.coefficient * 10 ^ (scale - b.scale)) scale

def add (a b : Decimal) : Except Fault Decimal :=
  orFault .additionOverflow (a.add? b)

/-- The difference is the sum with the opposite amount. Only a zero has
none: where it is taken away from another zero, it is itself the
difference. -/
def sub? (a b : Decimal) : Option Decimal :=
  if b.isZero then some (if a.isZero then b else a) else a.add? (-b)

def sub (a b : Decimal) : Except Fault Decimal :=
  orFault .subtractionOverflow (a.sub? b)

/-- Adds up a list from the left, starting at zero. -/
def sum (amounts : List Decimal) : Except Fault Decimal :=
  amounts.foldlM add zero

-- ======================================================== multiplication

/-- Whether a magnitude takes no more than 32 bits. -/
def isSmall (a : Decimal) : Bool := decide (a.magnitude < 2 ^ (32 : Nat))

/-- The product at the sum of the two scales, shortened if it does not
fit. A product of two small magnitudes so far below one that no digit of
it could be kept is zero. Where a product is rounded to zero, it keeps
its sign unless both magnitudes are small. -/
def mul? (a b : Decimal) : Option Decimal :=
  let small := a.isSmall && b.isSmall
  if a.isZero || b.isZero then some zero
  else if 47 < a.scale + b.scale ∧ small then some zero
  else
    (fit (a.coefficient * b.coefficient) (a.scale + b.scale)).map fun m =>
      if small then m else m.signZero (a.negative != b.negative)

def mul (a b : Decimal) : Except Fault Decimal :=
  orFault .multiplicationOverflow (a.mul? b)

end Payroll.Decimal
