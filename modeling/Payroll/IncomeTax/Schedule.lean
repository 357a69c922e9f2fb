/-
Income tax schedules: a bracket table, the income it applies to, and
whether its brackets are those of a year. A yearly schedule takes
twelve times the month's income and a twelfth of the tax.
-/
import Payroll.Decimal.Division
import Payroll.IncomeTax.BracketTable
import Payroll.Rounding

namespace Payroll

open Decimal (Fault)

/-- The income that a schedule taxes. -/
inductive TaxBase where
  | gross
  | grossLessEmployeeContributions
deriving DecidableEq

def TaxBase.name : TaxBase → String
  | .gross => "gross"
  | .grossLessEmployeeContributions => "gross_less_employee_contributions"

/-- The base of a name. -/
def TaxBase.ofName? (s : String) : Option TaxBase :=
  [TaxBase.gross, .grossLessEmployeeContributions].find? (·.name == s)

structure TaxSchedule where
  base : TaxBase
  annualized : Bool
  table : BracketTable
deriving DecidableEq

/-- The taxable income of a gross salary. -/
def TaxBase.taxableIncome (base : TaxBase) (gross contributions : Decimal) :
    Except Fault Decimal :=
  match base with
  | .gross => .ok gross
  | .grossLessEmployeeContributions => gross.sub contributions

/-- The tax of one period and how it came about. -/
structure TaxAssessment where
  taxableIncome : Decimal
  /-- The income looked up in the table. -/
  bracketIncome : Decimal
  bracket : Bracket
  annualized : Bool
  tax : Decimal
deriving DecidableEq

namespace TaxSchedule

/-- The months of a year. -/
def months : Decimal := .ofNat 12

/-- Assesses a month's taxable income, before rounding. -/
def assess (s : TaxSchedule) (income : Decimal) :
    Except Failure TaxAssessment := do
  let bracketIncome ←
    if s.annualized then
      match income.mul? months with
      | some annual => .ok annual
      | none => .error (.calculation (.incomeTooLarge income))
    else .ok income
  let due ← s.table.tax bracketIncome
  let tax ← if s.annualized then liftM (due.div months) else .ok due
  return {
    taxableIncome := income
    bracketIncome
    bracket := s.table.bracketOf bracketIncome
    annualized := s.annualized
    tax }

end TaxSchedule

/-- The tax rounded to the ledger. The incomes that led to it are kept
as they were used. -/
def TaxAssessment.rounded (a : TaxAssessment) (r : Rounding) :
    TaxAssessment :=
  { a with tax := r.round a.tax }

end Payroll
