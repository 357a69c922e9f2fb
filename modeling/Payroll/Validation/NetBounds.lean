/-
Bounds on a payslip before it is calculated. Every amount that the
calculation rounds lies between the floor and the ceiling of its exact
value, at whatever scale. So floors of what raises the net and ceilings
of what lowers it bound the payslip from the safe side: `gross` from
below, `withholdings` (tax and employee contributions) and `deductions`
from above.

There are no bounds where a calculator refuses the request; the
calculation itself reports why.
-/
import Payroll.Request
import Payroll.Rules.Snapshot

namespace Payroll

structure NetBounds where
  /-- At most the gross salary. -/
  gross : Decimal
  /-- At least the tax and the employee's contributions. -/
  withholdings : Decimal
  /-- At least the deductions, penalty and absence included. -/
  deductions : Decimal
deriving DecidableEq

namespace NetBounds

/-- The bounds of a request under a snapshot. -/
def compute (r : Request) (s : Snapshot) :
    OptionT (Except Crash) NetBounds := do
  let allowances ← r.totalAllowances
  let fixedPay ← OptionT.mk (pure (r.baseSalary.add? allowances))
  let hourlyRate ← s.hourlyRate r.baseSalary
  let overtime ← Failure.attempt
    (Overtime.compute r.overtimeHours hourlyRate s.overtime)
  let overtimeFloor ← Decimal.sum (overtime.lines.map (·.amount.floor))
  let overtimeCeiling ← Decimal.sum (overtime.lines.map (·.amount.ceil))
  let grossFloor ← fixedPay.add overtimeFloor
  let grossCeiling ← fixedPay.add overtimeCeiling
  let least ← Failure.attempt
    (Contributions.compute grossFloor s.contributions)
  let most ← Failure.attempt
    (Contributions.compute grossCeiling s.contributions)
  let employeeFloor ←
    Decimal.sum (least.lines.map (·.employeeAmount.floor))
  let employeeCeiling ←
    Decimal.sum (most.lines.map (·.employeeAmount.ceil))
  let taxable ← s.incomeTax.base.taxableIncome grossCeiling employeeFloor
  let assessed ← Failure.attempt (s.incomeTax.assess taxable)
  let dailyRate ← s.dailyRate r.baseSalary
  let adjustment ← Failure.attempt
    (Adjustment.compute r.attendance dailyRate s.attendance s.dailyHours)
  let withholdings ← assessed.tax.ceil.add employeeCeiling
  let explicit ← r.totalDeductions
  let penalized ← explicit.add adjustment.delayPenalty.ceil
  let deductions ← penalized.add adjustment.absenceDeduction.ceil
  return { gross := grossFloor, withholdings, deductions }

/-- The bounds of a request, if every calculator accepts it. -/
def estimate (r : Request) (s : Snapshot) :
    Except Crash (Option NetBounds) :=
  (compute r s).run

end NetBounds

end Payroll
