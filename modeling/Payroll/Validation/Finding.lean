/-
What validation can find in a request. A finding is a cause with the
values that show it. Most findings forbid the calculation; three only
announce what the calculation will do (`Finding.blocks`). Kind, code,
field and wording of the reported issue all follow from the cause.
-/
import Payroll.Attendance.Basic
import Payroll.Calendar.DateText
import Payroll.Calendar.Period
import Payroll.Category
import Payroll.Decimal.Text
import Payroll.Validation.Report

namespace Payroll

/-- The named amounts of a request. -/
inductive AmountGroup where
  | allowances
  | deductions
deriving DecidableEq

def AmountGroup.name : AmountGroup → String
  | .allowances => "allowances"
  | .deductions => "deductions"

/-- One thing found in a request. -/
inductive Finding where
  | employeeIdMissing
  | salaryNotPositive (salary : Decimal)
  | salaryBelowMinimum (salary minimum : Decimal)
  | negativeRegularHours (hours : Decimal)
  | hoursExceedPeriod (hours : Decimal) (period : Period)
  | negativeOvertime (category : Category) (hours : Decimal)
  | overtimeNotConfigured (category : Category)
  | overtimeAboveCap (category : Category) (hours cap : Decimal)
  | overtimeWithoutRegularHours
  | blankName (group : AmountGroup)
  | negativeAmount (group : AmountGroup) (name : String) (amount : Decimal)
  | deductionsExceedEstimate (deductions gross : Decimal)
  | periodInFuture (period : Period) (asOf : Date)
  | delayExceedsDay (minutes : UInt32)
  | delayRequiresApproval (minutes : UInt32)
  | negativeAbsence (days : Decimal)
  | absenceExceedsPeriod (days : Decimal) (period : Period)
  | paidAbsence (days : Decimal)
  | deductionsExceedGross (deductions gross : Decimal)
  | netNegative (deductions withholdings gross : Decimal)
deriving DecidableEq

namespace Finding

/-- Whether a finding forbids the calculation. -/
def blocks : Finding → Bool
  | overtimeAboveCap _ _ _ | delayRequiresApproval _ | paidAbsence _ => false
  | _ => true

def kind : Finding → IssueKind
  | salaryBelowMinimum _ _ | overtimeAboveCap _ _ _
  | overtimeWithoutRegularHours | deductionsExceedEstimate _ _
  | delayRequiresApproval _ | deductionsExceedGross _ _
  | netNegative _ _ _ => .businessRule
  | _ => .validation

def code : Finding → String
  | employeeIdMissing => "EMPLOYEE_ID_MISSING"
  | salaryNotPositive _ => "BASE_SALARY_NOT_POSITIVE"
  | salaryBelowMinimum _ _ => "BASE_SALARY_BELOW_MINIMUM"
  | negativeRegularHours _ | negativeOvertime _ _ => "NEGATIVE_HOURS"
  | hoursExceedPeriod _ _ => "HOURS_EXCEED_PERIOD"
  | overtimeNotConfigured _ => "OVERTIME_CATEGORY_NOT_CONFIGURED"
  | overtimeAboveCap _ _ _ => "OVERTIME_ABOVE_CAP"
  | overtimeWithoutRegularHours => "OVERTIME_WITHOUT_REGULAR_HOURS"
  | blankName _ => "BLANK_NAME"
  | negativeAmount _ _ _ => "NEGATIVE_AMOUNT"
  | deductionsExceedEstimate _ _ | deductionsExceedGross _ _ =>
    "DEDUCTIONS_EXCEED_GROSS"
  | periodInFuture _ _ => "PERIOD_IN_FUTURE"
  | delayExceedsDay _ => "DELAY_EXCEEDS_DAY"
  | delayRequiresApproval _ => "DELAY_REQUIRES_APPROVAL"
  | negativeAbsence _ => "NEGATIVE_ABSENCE"
  | absenceExceedsPeriod _ _ => "ABSENCE_EXCEEDS_PERIOD"
  | paidAbsence _ => "PAID_ABSENCE"
  | netNegative _ _ _ => "NET_SALARY_NEGATIVE"

/-- The part of the request that a finding is about. -/
def field : Finding → String
  | employeeIdMissing => "employee_id"
  | salaryNotPositive _ | salaryBelowMinimum _ _ => "base_salary"
  | negativeRegularHours _ | hoursExceedPeriod _ _ => "regular_hours"
  | negativeOvertime c _ | overtimeNotConfigured c
  | overtimeAboveCap c _ _ => s!"hours_by_category.{c.name}"
  | overtimeWithoutRegularHours => "hours_by_category"
  | blankName group => group.name
  | negativeAmount group name _ => s!"{group.name}.{name}"
  | periodInFuture _ _ => "period"
  | delayExceedsDay _ | delayRequiresApproval _ =>
    "attendance.delay_minutes"
  | negativeAbsence _ | absenceExceedsPeriod _ _ | paidAbsence _ =>
    "attendance.absence_days"
  | deductionsExceedEstimate _ _ | deductionsExceedGross _ _
  | netNegative _ _ _ => "deductions"

def message : Finding → String
  | employeeIdMissing => "employee ID is required"
  | salaryNotPositive salary =>
    s!"base salary must be positive, got {salary.toText}"
  | salaryBelowMinimum salary minimum =>
    s!"base salary {salary.toText} is below the minimum monthly wage "
      ++ minimum.toText
  | negativeRegularHours hours =>
    s!"regular hours cannot be negative, got {hours.toText}"
  | hoursExceedPeriod hours period =>
    s!"{hours.toText} regular hours exceed the {24 * period.days} hours "
      ++ s!"in {period.toText}"
  | negativeOvertime c hours =>
    s!"{c.name} overtime hours cannot be negative, got {hours.toText}"
  | overtimeNotConfigured c =>
    s!"no overtime rule is configured for {c.name}"
  | overtimeAboveCap c hours cap =>
    s!"{hours.toText} {c.name} hours exceed the {cap.toText} hour cap and "
      ++ "will be clamped"
  | overtimeWithoutRegularHours =>
    "overtime hours require non-zero regular hours"
  | blankName group => s!"{group.name} entries need a name"
  | negativeAmount group name amount =>
    s!"{group.name} '{name}' cannot be negative, got {amount.toText}"
  | deductionsExceedEstimate deductions gross =>
    s!"deductions {deductions.toText} exceed the estimated gross salary "
      ++ gross.toText
  | periodInFuture period asOf =>
    s!"period {period.toText} is after {asOf.toText}"
  | delayExceedsDay minutes =>
    s!"delay of {minutes.toNat} minutes exceeds 24 hours"
  | delayRequiresApproval minutes =>
    s!"delay of {minutes.toNat} minutes is severe; the penalty requires "
      ++ "approval"
  | negativeAbsence days =>
    s!"absence days cannot be negative, got {days.toText}"
  | absenceExceedsPeriod days period =>
    s!"{days.toText} absence days exceed the {period.days} days in "
      ++ period.toText
  | paidAbsence days =>
    s!"{days.toText} days of paid absence will be recorded without "
      ++ "deduction"
  | deductionsExceedGross deductions gross =>
    "deductions and attendance adjustments of up to "
      ++ s!"{deductions.toText} exceed the gross salary {gross.toText}"
  | netNegative deductions withholdings gross =>
    s!"deductions of up to {deductions.toText} plus tax and contributions "
      ++ s!"of up to {withholdings.toText} exceed the gross salary "
      ++ gross.toText

/-- The issue that is reported for a finding. -/
def issue (f : Finding) : Issue :=
  { kind := f.kind, code := f.code, field := f.field, message := f.message }

end Finding

/-- The report on everything that was found. -/
def Report.ofFindings (found : List Finding) : Report :=
  found.foldl
    (fun r f => if f.blocks then r.addError f.issue
      else r.addWarning f.issue)
    .empty

end Payroll
