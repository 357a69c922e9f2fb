/-
Rules as documents. Reading a bracket table checks it, and a table that
fails is reported as malformed and not only as unreadable. Reading a
snapshot does not check it any further; that is left to whoever builds
a rule book from it.
-/
import Payroll.Document.Shape
import Payroll.Rules.Book

namespace Payroll

open Document Shape
open scoped Power

namespace Document

/-- One of the rule tables of a snapshot, read and checked. -/
def accepted {α : Type} : Except Failure α → Read α
  | .ok a => .ok a
  | .error (.error (.malformedTable defect)) => .error (.malformed defect)
  | .error (.error _) => .error .illTyped
  | .error (.crash c) => .error (.crash c)

end Document

-- ============================================================= income tax

namespace Bracket

def toDocument (b : Bracket) : Document :=
  table [
    ("min_income", ofDecimal b.minIncome),
    ("max_income", ofOption ofDecimal b.maxIncome),
    ("rate", ofDecimal b.rate),
    ("fixed_amount", ofDecimal b.fixedAmount)]

def shape : Shape Bracket :=
  Bracket.mk
    <$> required "min_income" asDecimal
    <*> optional "max_income" asDecimal
    <*> required "rate" asDecimal
    <*> withDefault "fixed_amount" asDecimal .zero

def ofDocument (d : Document) : Read Bracket := shape.read d

end Bracket

namespace BracketTable

def toDocument (t : BracketTable) : Document :=
  list (t.brackets.map Bracket.toDocument)

def ofDocument (d : Document) : Read BracketTable := do
  let brackets ← d.asList Bracket.ofDocument
  accepted (ofBrackets brackets)

end BracketTable

namespace TaxSchedule

def toDocument (s : TaxSchedule) : Document :=
  Document.table [
    ("tax_base", text s.base.name),
    ("annualized", bool s.annualized),
    ("brackets", s.table.toDocument)]

def shape : Shape TaxSchedule :=
  TaxSchedule.mk
    <$> withDefault "tax_base" (asOneOf TaxBase.ofName?) .gross
    <*> withDefault "annualized" asBool false
    <*> required "brackets" BracketTable.ofDocument

def ofDocument (d : Document) : Read TaxSchedule := shape.read d

end TaxSchedule

-- ========================================================== other tables

namespace ContributionRate

def toDocument (r : ContributionRate) : Document :=
  table [
    ("scheme_name", text r.scheme),
    ("employee_rate", ofDecimal r.employeeRate),
    ("employer_rate", ofDecimal r.employerRate),
    ("income_ceiling", ofOption ofDecimal r.ceiling)]

def shape : Shape ContributionRate :=
  ContributionRate.mk
    <$> required "scheme_name" asText
    <*> required "employee_rate" asDecimal
    <*> required "employer_rate" asDecimal
    <*> optional "income_ceiling" asDecimal

def ofDocument (d : Document) : Read ContributionRate := shape.read d

end ContributionRate

namespace OvertimeRule

def toDocument (r : OvertimeRule) : Document :=
  table [
    ("category", text r.category.name),
    ("multiplier", ofDecimal r.multiplier),
    ("max_hours_per_period", ofOption ofDecimal r.cap)]

def shape : Shape OvertimeRule :=
  OvertimeRule.mk
    <$> required "category" (asOneOf Category.ofName?)
    <*> required "multiplier" asDecimal
    <*> optional "max_hours_per_period" asDecimal

def ofDocument (d : Document) : Read OvertimeRule := shape.read d

end OvertimeRule

namespace AttendancePolicy

def toDocument (p : AttendancePolicy) : Document :=
  table [
    ("minor_penalty", ofDecimal p.minorPenalty),
    ("severe_escalation", ofDecimal p.severeEscalation)]

def shape : Shape AttendancePolicy :=
  let usual : AttendancePolicy := {}
  AttendancePolicy.mk
    <$> withDefault "minor_penalty" asDecimal usual.minorPenalty
    <*> withDefault "severe_escalation" asDecimal usual.severeEscalation

def ofDocument (d : Document) : Read AttendancePolicy := shape.read d

end AttendancePolicy

-- ==================================================== snapshots and books

namespace Snapshot

def toDocument (s : Snapshot) : Document :=
  table [
    ("effective_date", text s.effectiveDate.toText),
    ("minimum_monthly_wage", ofDecimal s.minimumWage),
    ("standard_monthly_hours", ofDecimal s.monthlyHours),
    ("working_days_per_month", ofDecimal s.workingDays),
    ("standard_daily_hours", ofDecimal s.dailyHours),
    ("attendance", s.attendance.toDocument),
    ("income_tax", s.incomeTax.toDocument),
    ("contributions", list (s.contributions.map (·.toDocument))),
    ("overtime", list (s.overtime.map (·.toDocument)))]

def shape : Shape Snapshot :=
  Snapshot.mk
    <$> required "effective_date" asDate
    <*> required "minimum_monthly_wage" asDecimal
    <*> required "standard_monthly_hours" asDecimal
    <*> required "working_days_per_month" asDecimal
    <*> required "standard_daily_hours" asDecimal
    <*> withDefault "attendance" AttendancePolicy.ofDocument {}
    <*> required "income_tax" TaxSchedule.ofDocument
    <*> required "contributions" (asList ContributionRate.ofDocument)
    <*> required "overtime" (asList OvertimeRule.ofDocument)

def ofDocument (d : Document) : Read Snapshot := shape.read d

end Snapshot

namespace Jurisdiction

def toDocument (j : Jurisdiction) : Document :=
  table [
    ("code", text j.code),
    ("name", text j.name),
    ("currency", text j.currency),
    ("currency_scale", ofNat j.currencyScale),
    ("source_url", ofOption text j.sourceUrl)]

def shape : Shape Jurisdiction :=
  Jurisdiction.mk
    <$> required "code" asText
    <*> required "name" asText
    <*> required "currency" asText
    <*> withDefault "currency_scale" (asNatBelow (2 ^ (32 : Nat))) 0
    <*> optional "source_url" asText

def ofDocument (d : Document) : Read Jurisdiction := shape.read d

end Jurisdiction

end Payroll
