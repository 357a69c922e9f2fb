/-
Rule snapshots: every rule in force from one date on. A change of the
law is a new snapshot, never an edit of an old one.

`check` holds what the tables of a snapshot cannot hold by themselves:
the divisors of the salary are positive, a working day has at most 24
hours, nothing that is withheld is negative, and the contribution and
overtime tables pass their own checks. The bracket table needs none
here, since a table that exists has passed its checks.
-/
import Payroll.Attendance.Adjustment
import Payroll.Contribution.Basic
import Payroll.IncomeTax.Schedule
import Payroll.Overtime.Basic

namespace Payroll

open Decimal (Fault)

structure Snapshot where
  /-- The first day that the rules apply to. -/
  effectiveDate : Date
  minimumWage : Decimal
  /-- The hours that a monthly salary pays for. -/
  monthlyHours : Decimal
  /-- The days that a monthly salary pays for. -/
  workingDays : Decimal
  /-- The hours of a working day. -/
  dailyHours : Decimal
  attendance : AttendancePolicy
  incomeTax : TaxSchedule
  contributions : List ContributionRate
  overtime : List OvertimeRule
deriving DecidableEq

namespace Snapshot

/-- Checks that a quantity of the snapshot is positive. -/
def checkPositive (divisor : Divisor) (value : Decimal) :
    Except Failure Unit :=
  if value ≤ .zero then .error (.malformed (.notPositive divisor value))
  else .ok ()

def checkLimits (s : Snapshot) : Except Failure Unit :=
  if .ofNat 24 < s.dailyHours then
    .error (.malformed (.longDay s.dailyHours))
  else if s.minimumWage < .zero then .error (.malformed .negativeWage)
  else if s.attendance.minorPenalty < .zero
      ∨ s.attendance.severeEscalation < .one then
    .error (.malformed .attendancePolicy)
  else .ok ()

/-- Checks a snapshot; the first defect found is the answer. -/
def check (s : Snapshot) : Except Failure Unit := do
  checkPositive .monthlyHours s.monthlyHours
  checkPositive .workingDays s.workingDays
  checkPositive .dailyHours s.dailyHours
  s.checkLimits
  ContributionRate.checkAll s.contributions
  OvertimeRule.checkAll s.overtime

/-- The overtime rule of a category. -/
def overtimeRule? (s : Snapshot) (c : Category) : Option OvertimeRule :=
  OvertimeRule.find? s.overtime c

/-- The pay of one hour of a monthly salary. -/
def hourlyRate (s : Snapshot) (salary : Decimal) : Except Fault Decimal :=
  salary.div s.monthlyHours

/-- The pay of one day of a monthly salary. -/
def dailyRate (s : Snapshot) (salary : Decimal) : Except Fault Decimal :=
  salary.div s.workingDays

end Snapshot

end Payroll
