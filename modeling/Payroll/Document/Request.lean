/-
Requests as documents. A request is written with all of its fields and
read with its optional ones absent or present: without hours, names or
attendance there are none.
-/
import Payroll.Document.Shape
import Payroll.Request

namespace Payroll

open Document Shape

namespace Document

/-- Amounts under names. -/
def ofNamed (m : Named Decimal) : Document :=
  table (m.entries.map fun e => (e.1, ofDecimal e.2))

/-- Amounts under the names of categories. -/
def ofByCategory (m : ByCategory Decimal) : Document :=
  table (m.entries.map fun e => (e.1.name, ofDecimal e.2))

end Document

namespace Attendance

def toDocument (a : Attendance) : Document :=
  table [
    ("delay_minutes", ofNat a.delayMinutes.toNat),
    ("absence_days", ofDecimal a.absenceDays),
    ("is_paid_absence", bool a.paidAbsence)]

def shape : Shape Attendance :=
  Attendance.mk
    <$> withDefault "delay_minutes" asUInt32 0
    <*> withDefault "absence_days" asDecimal .zero
    <*> withDefault "is_paid_absence" asBool false

def ofDocument (d : Document) : Read Attendance := shape.read d

end Attendance

namespace Request

def toDocument (r : Request) : Document :=
  table [
    ("employee_id", text r.employeeId),
    ("period", text r.period.toText),
    ("base_salary", ofDecimal r.baseSalary),
    ("regular_hours", ofDecimal r.regularHours),
    ("hours_by_category", ofByCategory r.overtimeHours),
    ("allowances", ofNamed r.allowances),
    ("deductions", ofNamed r.deductions),
    ("attendance", r.attendance.toDocument)]

def shape : Shape Request :=
  Request.mk
    <$> required "employee_id" asText
    <*> required "period" asPeriod
    <*> required "base_salary" asDecimal
    <*> required "regular_hours" asDecimal
    <*> withDefault "hours_by_category" (asByCategory asDecimal) .empty
    <*> withDefault "allowances" (asNamed asDecimal) .empty
    <*> withDefault "deductions" (asNamed asDecimal) .empty
    <*> withDefault "attendance" Attendance.ofDocument {}

def ofDocument (d : Document) : Read Request := shape.read d

end Request

end Payroll
