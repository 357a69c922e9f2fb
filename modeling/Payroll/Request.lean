/-
Payroll requests: everything that is known of one employee for one
period. A request is plain data; whether it makes sense is for
validation to say.
-/
import Payroll.Attendance.Basic
import Payroll.Calendar.Period
import Payroll.Category
import Payroll.Decimal.Arithmetic
import Payroll.Named

namespace Payroll

structure Request where
  employeeId : String
  period : Period
  /-- The monthly salary. -/
  baseSalary : Decimal
  /-- Ordinary hours worked. -/
  regularHours : Decimal
  overtimeHours : ByCategory Decimal := .empty
  /-- Named payments on top of the salary. -/
  allowances : Named Decimal := .empty
  /-- Named amounts to withhold. -/
  deductions : Named Decimal := .empty
  attendance : Attendance := {}
deriving DecidableEq

namespace Request

open Decimal (Fault)

def totalAllowances (r : Request) : Except Fault Decimal :=
  Decimal.sum r.allowances.values

def totalDeductions (r : Request) : Except Fault Decimal :=
  Decimal.sum r.deductions.values

def totalOvertimeHours (r : Request) : Except Fault Decimal :=
  Decimal.sum r.overtimeHours.values

end Request

end Payroll
