/-
The trace of a payslip: one numbered detail for each term, in the order
of the calculation. Salary, allowances and overtime lead to the gross;
contributions, taxable income and tax follow; deductions, delay and
absence lead to the total of deductions; the net salary closes it.

A formula shows its numbers in their shortest spelling, and hourly and
daily rates to four places; the inputs beside it hold them as they
were used.
-/
import Payroll.Contribution.Basic
import Payroll.IncomeTax.Schedule
import Payroll.Overtime.Basic
import Payroll.Payslip.Basic
import Payroll.Request

namespace Payroll

/-- The figures of a payslip and the parts that they were computed
from. -/
structure Figures where
  request : Request
  tax : TaxAssessment
  contributions : Contributions
  overtime : Overtime
  adjustment : Adjustment
  totalAllowances : Decimal
  gross : Decimal
  totalContributions : Decimal
  explicitDeductions : Decimal
  totalDeductions : Decimal
  net : Decimal

/-- A detail that has no number yet. -/
structure Term where
  ruleId : String
  label : String
  formula : String
  amount : Decimal
  inputs : Document

/-- Numbers terms from one, in the 32 bits of a step number. -/
def Term.number (terms : List Term) : List Detail :=
  terms.zipIdx.map fun e =>
    { stepNumber := .ofNat e.2 + 1, ruleId := e.1.ruleId, label := e.1.label
      formula := e.1.formula, amount := e.1.amount, inputs := e.1.inputs }

namespace Figures

/-- The shortest text of an amount. -/
def brief (a : Decimal) : String := a.normalize.toText

/-- The text of an hourly or daily rate. -/
def briefRate (a : Decimal) : String := brief (a.round .toEven 4)

/-- Amounts under their names. -/
def amounts (l : List (String × Decimal)) : Document :=
  .table (l.map fun e => (e.1, .ofDecimal e.2))

-- ======================================================= the earnings side

def baseTerm (f : Figures) : Term :=
  let base := f.request.baseSalary
  { ruleId := "base_salary"
    label := "Base salary"
    formula := brief base
    amount := base
    inputs := amounts [("base_salary", base)] }

def allowanceTerm (e : String × Decimal) : Term :=
  { ruleId := s!"allowance:{e.1}"
    label := s!"Allowance: {e.1}"
    formula := brief e.2
    amount := e.2
    inputs := .table [("name", .text e.1)] }

def overtimeTerm (l : OvertimeLine) : Term :=
  { ruleId := s!"overtime:{l.category.name}"
    label := s!"Overtime ({l.category.name})"
    formula := s!"{brief l.paidHours} h × {briefRate l.hourlyRate} × "
      ++ brief l.multiplier
    amount := l.amount
    inputs := amounts [
      ("requested_hours", l.requestedHours),
      ("paid_hours", l.paidHours),
      ("hourly_rate", l.hourlyRate),
      ("multiplier", l.multiplier)] }

def grossTerm (f : Figures) : Term :=
  let base := f.request.baseSalary
  { ruleId := "gross_salary"
    label := "Gross salary"
    formula := s!"{brief base} + {brief f.totalAllowances} + "
      ++ brief f.overtime.total
    amount := f.gross
    inputs := amounts [
      ("base_salary", base),
      ("total_allowances", f.totalAllowances),
      ("total_overtime", f.overtime.total)] }

-- ==================================================== contributions and tax

def contributionTerm (gross : Decimal) (l : ContributionLine) : Term :=
  { ruleId := s!"contribution:{l.scheme}"
    label := s!"Contribution: {l.scheme}"
    formula := match l.ceiling with
      | some c =>
        s!"min({brief gross}, {brief c}) × {brief l.employeeRate}"
      | none => s!"{brief gross} × {brief l.employeeRate}"
    amount := l.employeeAmount
    inputs := amounts [
      ("base", l.base),
      ("employee_rate", l.employeeRate),
      ("employer_rate", l.employerRate),
      ("employer_amount", l.employerAmount)] }

def taxableTerm (f : Figures) : Term :=
  { ruleId := "taxable_income"
    label := "Taxable income"
    formula := brief f.tax.taxableIncome
    amount := f.tax.taxableIncome
    inputs := amounts [("gross_salary", f.gross)] }

/-- The closed form of a bracket's tax. -/
def bracketFormula (t : TaxAssessment) : String :=
  let b := t.bracket
  s!"{brief b.fixedAmount} + ({brief t.bracketIncome} − "
    ++ s!"{brief b.minIncome}) × {brief b.rate}"

def taxTerm (t : TaxAssessment) : Term :=
  let closed := bracketFormula t
  { ruleId := "income_tax"
    label := "Income tax (IRPP)"
    formula := if t.annualized then s!"({closed}) / 12" else closed
    amount := t.tax
    inputs := .table [
      ("bracket_income", .ofDecimal t.bracketIncome),
      ("bracket_min_income", .ofDecimal t.bracket.minIncome),
      ("bracket_rate", .ofDecimal t.bracket.rate),
      ("bracket_fixed_amount", .ofDecimal t.bracket.fixedAmount),
      ("annualized", .bool t.annualized)] }

-- ============================================================== deductions

def deductionTerm (e : String × Decimal) : Term :=
  { ruleId := s!"deduction:{e.1}"
    label := s!"Deduction: {e.1}"
    formula := brief e.2
    amount := e.2
    inputs := .table [("name", .text e.1)] }

/-- A delay of any tier is traced, whatever it costs. -/
def delayTerms (a : Adjustment) : List Term :=
  if a.tier = .onTime then []
  else
    [{ ruleId := "delay_penalty"
       label := "Delay penalty"
       formula := s!"{a.delayMinutes.toNat} min late ({a.tier.label})"
       amount := a.delayPenalty
       inputs := .table [
         ("delay_minutes", .ofNat a.delayMinutes.toNat),
         ("daily_rate", .ofDecimal a.dailyRate),
         ("requires_approval", .bool a.requiresApproval)] }]

/-- An absence is traced, paid or not. -/
def absenceTerms (a : Adjustment) : List Term :=
  if .zero < a.absenceDays then
    [{ ruleId := "absence_deduction"
       label := "Absence deduction"
       formula :=
         if a.paidAbsence then s!"{brief a.absenceDays} days paid absence"
         else s!"{brief a.absenceDays} days × {briefRate a.dailyRate}"
       amount := a.absenceDeduction
       inputs := .table [
         ("absence_days", .ofDecimal a.absenceDays),
         ("is_paid_absence", .bool a.paidAbsence)] }]
  else []

def deductionsTerm (f : Figures) : Term :=
  { ruleId := "total_deductions"
    label := "Total deductions"
    formula := s!"{brief f.explicitDeductions} + "
      ++ s!"{brief f.adjustment.delayPenalty} + "
      ++ brief f.adjustment.absenceDeduction
    amount := f.totalDeductions
    inputs := .table [] }

def netTerm (f : Figures) : Term :=
  { ruleId := "net_salary"
    label := "Net salary"
    formula := s!"{brief f.gross} − {brief f.tax.tax} − "
      ++ s!"{brief f.totalContributions} − {brief f.totalDeductions}"
    amount := f.net
    inputs := .table [] }

-- =============================================================== the trace

/-- The terms of a payslip, in the order of the calculation. -/
def terms (f : Figures) : List Term :=
  [f.baseTerm]
    ++ f.request.allowances.entries.map allowanceTerm
    ++ f.overtime.lines.map overtimeTerm
    ++ [f.grossTerm]
    ++ f.contributions.lines.map (contributionTerm f.gross)
    ++ [f.taxableTerm, taxTerm f.tax]
    ++ f.request.deductions.entries.map deductionTerm
    ++ delayTerms f.adjustment
    ++ absenceTerms f.adjustment
    ++ [f.deductionsTerm, f.netTerm]

def trace (f : Figures) : List Detail := Term.number f.terms

end Figures

end Payroll
