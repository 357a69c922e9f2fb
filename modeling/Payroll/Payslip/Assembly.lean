/-
Putting a payslip together from its parts:

    gross            = base + allowances + overtime
    total deductions = deductions + delay penalty + absence deduction
    net              = gross - tax - contributions - total deductions

The parts arrive rounded; here they are only added and subtracted. Two
things are refused and never repaired: deductions above the gross, and
a negative net. So a payslip that is returned keeps both.
-/
import Payroll.Payslip.Trace

namespace Payroll

/-- The figures of a payslip, or what is wrong with them. -/
def Figures.compute (request : Request) (tax : TaxAssessment)
    (contributions : Contributions) (overtime : Overtime)
    (adjustment : Adjustment) : Except Failure Figures := do
  let overtimeSum ← Decimal.sum overtime.amountByCategory.values
  if ¬ overtimeSum ≈ overtime.total then
    .error (.calculation (.overtimeMismatch overtime.total overtimeSum))
  else
    let totalAllowances ← request.totalAllowances
    let fixedPay ← request.baseSalary.add totalAllowances
    let gross ← fixedPay.add overtime.total
    let totalContributions ← contributions.employeeTotal
    let explicitDeductions ← request.totalDeductions
    let adjusted ← adjustment.total
    let totalDeductions ← explicitDeductions.add adjusted
    if gross < totalDeductions then
      .error (.calculation
        (.deductionsExceedGross totalDeductions gross request.employeeId))
    else
      let afterTax ← gross.sub tax.tax
      let afterContributions ← afterTax.sub totalContributions
      let net ← afterContributions.sub totalDeductions
      if net < .zero then
        .error (.calculation (.negativeNet net request.employeeId))
      else
        return {
          request, tax, contributions, overtime, adjustment
          totalAllowances, gross, totalContributions, explicitDeductions
          totalDeductions, net }

/-- The payslip that figures add up to. -/
def Figures.payslip (f : Figures) (rulesEffectiveDate : Date) : Payslip :=
  { employeeId := f.request.employeeId
    period := f.request.period
    rulesEffectiveDate
    baseSalary := f.request.baseSalary
    grossSalary := f.gross
    taxableIncome := f.tax.taxableIncome
    incomeTax := f.tax.tax
    contributions := f.contributions.employeeByScheme
    employerContributions := f.contributions.employerByScheme
    overtimeAmounts := f.overtime.amountByCategory
    totalOvertime := f.overtime.total
    totalAllowances := f.totalAllowances
    totalDeductions := f.totalDeductions
    netSalary := f.net
    attendance := f.adjustment.summary
    warnings := f.overtime.warnings ++ f.adjustment.warnings
    details := f.trace }

/-- Puts a payslip together from its parts. -/
def Payslip.assemble (request : Request) (tax : TaxAssessment)
    (contributions : Contributions) (overtime : Overtime)
    (adjustment : Adjustment) (rulesEffectiveDate : Date) :
    Except Failure Payslip := do
  let figures ←
    Figures.compute request tax contributions overtime adjustment
  return figures.payslip rulesEffectiveDate

end Payroll
