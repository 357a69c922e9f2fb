/-
The calculation of one payslip. A request that validation accepts goes
through overtime, contributions, income tax and attendance, and each
amount is rounded to the ledger before the next stage uses it; the
payslip is then put together from the rounded parts.
-/
import Payroll.Payslip.Assembly
import Payroll.Rules.Book
import Payroll.Validation.Basic

namespace Payroll

/-- The payslip of a request under given rules. -/
def calculateWith (r : Request) (s : Snapshot) (rounding : Rounding)
    (asOf : Date) : Except Failure Payslip := do
  let report ← validate r s asOf
  if ¬ report.valid then .error (.error (.rejected report))
  else
    let hourlyRate ← s.hourlyRate r.baseSalary
    let exactOvertime ←
      Overtime.compute r.overtimeHours hourlyRate s.overtime
    let overtime ← exactOvertime.rounded rounding
    let allowances ← r.totalAllowances
    let fixedPay ← r.baseSalary.add allowances
    let gross ← fixedPay.add overtime.total
    let exactContributions ← Contributions.compute gross s.contributions
    let contributions := exactContributions.rounded rounding
    let withheld ← contributions.employeeTotal
    let taxable ← s.incomeTax.base.taxableIncome gross withheld
    let exactTax ← s.incomeTax.assess taxable
    let tax := exactTax.rounded rounding
    let dailyRate ← s.dailyRate r.baseSalary
    let exactAdjustment ←
      Adjustment.compute r.attendance dailyRate s.attendance s.dailyHours
    let adjustment := exactAdjustment.rounded rounding
    Payslip.assemble r tax contributions overtime adjustment
      s.effectiveDate

/-- The payslip of a request under the rules of its period. -/
def calculate (r : Request) (book : RuleBook) (asOf : Date) :
    Except Failure Payslip :=
  match book.snapshotFor r.period with
  | .error e => .error (.error e)
  | .ok s => calculateWith r s book.rounding asOf

end Payroll
