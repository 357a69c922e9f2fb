/-
Payslips: everything that one employee's payroll for one period came
to, with the trace that explains it. A payslip holds no time of day and
no random mark, so equal requests under equal rules have equal
payslips.
-/
import Payroll.Attendance.Adjustment
import Payroll.Calendar.Period
import Payroll.Category
import Payroll.Document.Basic
import Payroll.Named
import Payroll.Warning

namespace Payroll

open Decimal (Fault)

/-- One traced term: what was computed, by which formula, from what. -/
structure Detail where
  /-- The place in the trace, in the 32 bits that it is written with. -/
  stepNumber : UInt32
  /-- The rule that produced the amount. -/
  ruleId : String
  label : String
  /-- The formula with the numbers put in. -/
  formula : String
  amount : Decimal
  /-- The numbers of the formula under their names. -/
  inputs : Document

structure Payslip where
  employeeId : String
  period : Period
  /-- The date from which the rules that were applied are in force. -/
  rulesEffectiveDate : Date
  baseSalary : Decimal
  /-- Salary, allowances and overtime. -/
  grossSalary : Decimal
  taxableIncome : Decimal
  incomeTax : Decimal
  /-- The employee's shares, which are withheld. -/
  contributions : Named Decimal
  /-- The employer's shares, which are not. -/
  employerContributions : Named Decimal
  overtimeAmounts : ByCategory Decimal
  totalOvertime : Decimal
  totalAllowances : Decimal
  /-- Deductions of the request, delay penalty and absence. -/
  totalDeductions : Decimal
  /-- What is paid out. -/
  netSalary : Decimal
  attendance : AttendanceSummary
  warnings : List Warning
  details : List Detail

namespace Payslip

def totalContributions (p : Payslip) : Except Fault Decimal :=
  Decimal.sum p.contributions.values

def totalEmployerContributions (p : Payslip) : Except Fault Decimal :=
  Decimal.sum p.employerContributions.values

/-- What the employee costs the employer. -/
def employerCost (p : Payslip) : Except Fault Decimal := do
  let shares ← p.totalEmployerContributions
  p.grossSalary.add shares

/-- The first detail that a rule produced. -/
def detail? (p : Payslip) (ruleId : String) : Option Detail :=
  p.details.find? (·.ruleId == ruleId)

end Payslip

end Payroll
