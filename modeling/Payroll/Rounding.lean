/-
Rounding to the ledger currency: every amount of a payslip that a rate
or a divisor produced is rounded to the places of the currency before
it is used again, a half going away from zero.
-/
import Payroll.Decimal.Rounding

namespace Payroll

/-- The number of decimal places that the ledger keeps. -/
structure Rounding where
  places : Nat
deriving DecidableEq

/-- An amount of the ledger currency. -/
def Rounding.round (r : Rounding) (amount : Decimal) : Decimal :=
  amount.round .awayFromZero r.places

end Payroll
