/-
Payslips and reports as documents. A payslip is written with all of its
fields and read back with every one of them present; the inputs of a
detail are kept as they are.
-/
import Payroll.Document.Request
import Payroll.Payslip.Basic
import Payroll.Validation.Report

namespace Payroll

open Document Shape
open scoped Power

namespace Warning

def toDocument (w : Warning) : Document :=
  table [
    ("code", text w.code),
    ("message", text w.message),
    ("severity", text w.severity.name)]

def shape : Shape Warning :=
  Warning.mk
    <$> required "code" asText
    <*> required "message" asText
    <*> required "severity" (asOneOf Severity.ofName?)

def ofDocument (d : Document) : Read Warning := shape.read d

end Warning

namespace AttendanceSummary

def toDocument (a : AttendanceSummary) : Document :=
  table [
    ("tier", text a.tier.name),
    ("delay_minutes", ofNat a.delayMinutes.toNat),
    ("delay_penalty", ofDecimal a.delayPenalty),
    ("absence_days", ofDecimal a.absenceDays),
    ("paid_absence_days", ofDecimal a.paidAbsenceDays),
    ("absence_deduction", ofDecimal a.absenceDeduction),
    ("requires_approval", bool a.requiresApproval)]

def shape : Shape AttendanceSummary :=
  AttendanceSummary.mk
    <$> required "tier" (asOneOf DelayTier.ofName?)
    <*> required "delay_minutes" asUInt32
    <*> required "delay_penalty" asDecimal
    <*> required "absence_days" asDecimal
    <*> required "paid_absence_days" asDecimal
    <*> required "absence_deduction" asDecimal
    <*> required "requires_approval" asBool

def ofDocument (d : Document) : Read AttendanceSummary := shape.read d

end AttendanceSummary

namespace Detail

def toDocument (t : Detail) : Document :=
  table [
    ("step_number", ofNat t.stepNumber.toNat),
    ("rule_id", text t.ruleId),
    ("label", text t.label),
    ("formula", text t.formula),
    ("amount", ofDecimal t.amount),
    ("inputs", t.inputs)]

def shape : Shape Detail :=
  Detail.mk
    <$> required "step_number" asUInt32
    <*> required "rule_id" asText
    <*> required "label" asText
    <*> required "formula" asText
    <*> required "amount" asDecimal
    <*> required "inputs" Except.ok

def ofDocument (d : Document) : Read Detail := shape.read d

end Detail

namespace Payslip

def toDocument (p : Payslip) : Document :=
  table [
    ("employee_id", text p.employeeId),
    ("period", text p.period.toText),
    ("rules_effective_date", text p.rulesEffectiveDate.toText),
    ("base_salary", ofDecimal p.baseSalary),
    ("gross_salary", ofDecimal p.grossSalary),
    ("taxable_income", ofDecimal p.taxableIncome),
    ("income_tax", ofDecimal p.incomeTax),
    ("contributions_by_scheme", ofNamed p.contributions),
    ("employer_contributions_by_scheme", ofNamed p.employerContributions),
    ("overtime_amount_by_category", ofByCategory p.overtimeAmounts),
    ("total_overtime", ofDecimal p.totalOvertime),
    ("total_allowances", ofDecimal p.totalAllowances),
    ("total_deductions", ofDecimal p.totalDeductions),
    ("net_salary", ofDecimal p.netSalary),
    ("attendance", p.attendance.toDocument),
    ("warnings", list (p.warnings.map (·.toDocument))),
    ("calculation_details", list (p.details.map (·.toDocument)))]

def shape : Shape Payslip :=
  Payslip.mk
    <$> required "employee_id" asText
    <*> required "period" asPeriod
    <*> required "rules_effective_date" asDate
    <*> required "base_salary" asDecimal
    <*> required "gross_salary" asDecimal
    <*> required "taxable_income" asDecimal
    <*> required "income_tax" asDecimal
    <*> required "contributions_by_scheme" (asNamed asDecimal)
    <*> required "employer_contributions_by_scheme" (asNamed asDecimal)
    <*> required "overtime_amount_by_category" (asByCategory asDecimal)
    <*> required "total_overtime" asDecimal
    <*> required "total_allowances" asDecimal
    <*> required "total_deductions" asDecimal
    <*> required "net_salary" asDecimal
    <*> required "attendance" AttendanceSummary.ofDocument
    <*> required "warnings" (asList Warning.ofDocument)
    <*> required "calculation_details" (asList Detail.ofDocument)

def ofDocument (d : Document) : Read Payslip := shape.read d

end Payslip

-- ================================================================ reports

namespace Issue

def toDocument (i : Issue) : Document :=
  table [
    ("kind", text i.kind.name),
    ("code", text i.code),
    ("field", text i.field),
    ("message", text i.message)]

def shape : Shape Issue :=
  Issue.mk
    <$> required "kind" (asOneOf IssueKind.ofName?)
    <*> required "code" asText
    <*> required "field" asText
    <*> required "message" asText

def ofDocument (d : Document) : Read Issue := shape.read d

end Issue

namespace Report

def toDocument (r : Report) : Document :=
  table [
    ("valid", bool r.valid),
    ("errors", list (r.errors.map (·.toDocument))),
    ("warnings", list (r.warnings.map (·.toDocument)))]

def shape : Shape Report :=
  Report.mk
    <$> required "valid" asBool
    <*> required "errors" (asList Issue.ofDocument)
    <*> required "warnings" (asList Issue.ofDocument)

def ofDocument (d : Document) : Read Report := shape.read d

end Report

end Payroll
