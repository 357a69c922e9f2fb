/-
Why a payroll computation has no result.

An `Error` is an answer: the request was rejected, rules or data are
missing, a rule table is malformed, a calculation met a value that it
must refuse. It is a cause, and `Error.message` is the only place that
words it.

A `Crash` is no answer but the end of a computation: arithmetic without
a result, a pool that cannot be set up, or a calculator that gives up by
itself. A `Failure` is
either. Whoever runs calculations for many employees turns the crash of
one of them into an error of that employee.
-/
import Payroll.Calendar.Period
import Payroll.Decimal.Arithmetic
import Payroll.Error.TableDefect
import Payroll.Validation.Report

namespace Payroll

open scoped Power

/-- A computation that ended without an answer. -/
inductive Crash where
  | fault (fault : Decimal.Fault)
  /-- A pool that was to have more permits than a pool can have. -/
  | tooManyPermits
  /-- A calculator that gave up and said why. -/
  | stated (text : String)
  /-- A calculator that gave up and said nothing readable. -/
  | silent
deriving DecidableEq

/-- The most permits that a pool can have. -/
def maxPermits : Nat := 2 ^ (61 : Nat) - 1

def Crash.message : Crash → String
  | .fault f => f.message
  | .tooManyPermits =>
    "a semaphore may not have more than MAX_PERMITS permits "
      ++ s!"({maxPermits})"
  | .stated text => text
  | .silent => "unknown panic"

/-- A value that a calculation refuses. Requests that passed validation
do not lead to one, except where amounts grow too large. -/
inductive CalculationError where
  | negativeTaxableIncome (income : Decimal)
  | incomeTooLarge (income : Decimal)
  | negativeGross (gross : Decimal)
  | negativeHourlyRate (rate : Decimal)
  | negativeOvertime (category : Category) (hours : Decimal)
  | noOvertimeRule (category : Category)
  | negativeDailyRate (rate : Decimal)
  | negativeAbsence (days : Decimal)
  | noWorkingDay
  | overtimeMismatch (total sum : Decimal)
  | deductionsExceedGross (deductions gross : Decimal) (employeeId : String)
  | negativeNet (net : Decimal) (employeeId : String)
  | crashed (crash : Crash)
  /-- A calculation that was started and never reported back. -/
  | noResult
  /-- An error known only by its wording. -/
  | stated (text : String)
deriving DecidableEq

def CalculationError.message : CalculationError → String
  | negativeTaxableIncome income =>
    s!"taxable income cannot be negative, got {income.toText}"
  | incomeTooLarge income =>
    s!"taxable income {income.toText} is too large to annualize"
  | negativeGross gross =>
    s!"gross salary cannot be negative, got {gross.toText}"
  | negativeHourlyRate rate =>
    s!"hourly rate cannot be negative, got {rate.toText}"
  | negativeOvertime c hours =>
    s!"{c.name} overtime hours cannot be negative, got {hours.toText}"
  | noOvertimeRule c => s!"no overtime rule for category {c.name}"
  | negativeDailyRate rate =>
    s!"daily rate cannot be negative, got {rate.toText}"
  | negativeAbsence days =>
    s!"absence days cannot be negative, got {days.toText}"
  | noWorkingDay => "standard daily hours must be positive"
  | overtimeMismatch total sum =>
    s!"overtime total {total.toText} does not match category sum "
      ++ sum.toText
  | deductionsExceedGross deductions gross id =>
    s!"total deductions {deductions.toText} exceed gross salary "
      ++ s!"{gross.toText} for employee '{id}'"
  | negativeNet net id =>
    s!"net salary {net.toText} is negative for employee '{id}'"
  | crashed crash => s!"calculation panicked: {crash.message}"
  | noResult => "payroll task ended without a result"
  | stated text => text

/-- Why a configuration file cannot be used. -/
inductive Unreadable where
  /-- The text is not of the form, or a value is not of the kind, that
  is wanted there. -/
  | undecodable
  | malformedTable (defect : TableDefect)
  /-- A file named for one date holds rules for another. -/
  | misdated (named effective : Date)
  /-- A cause known only by its wording. -/
  | stated (text : String)
deriving DecidableEq

/-- The wording of a cause that has one of its own. -/
def Unreadable.detail? : Unreadable → Option String
  | .undecodable => none
  | .malformedTable defect => some defect.message
  | .misdated named effective =>
    some (s!"file name says {named.toText} but effective_date is "
      ++ effective.toText)
  | .stated text => some text

/-- Why a payroll has no result. -/
inductive Error where
  | configNotFound (path : String)
  | configUnreadable (path : String) (cause : Unreadable)
  | malformedTable (defect : TableDefect)
  | rulesNotFound (date : Date)
  | employeeNotFound (employeeId : String) (period : Period)
  | rejected (report : Report)
  | calculation (cause : CalculationError)
  | duplicateRequest (employeeId : String)
deriving DecidableEq

namespace Error

def message : Error → String
  | configNotFound path => s!"Configuration file not found: {path}"
  | configUnreadable path cause =>
    s!"Failed to parse configuration file '{path}': "
      ++ cause.detail?.getD "not in the expected form"
  | malformedTable defect => defect.message
  | rulesNotFound date => s!"No payroll rules effective on {date.toText}"
  | employeeNotFound id period =>
    s!"No payroll data for employee '{id}' in period {period.toText}"
  | rejected report => s!"Validation failed: {report.summary}"
  | calculation cause => s!"Calculation error: {cause.message}"
  | duplicateRequest id =>
    s!"Duplicate payroll request for employee '{id}' in the same batch"

/-- The caller has to correct the request. -/
def isValidation : Error → Bool
  | rejected _ => true
  | _ => false

def isBusinessRuleViolation : Error → Bool
  | rejected report => report.hasBusinessRuleViolation
  | _ => false

/-- The engine or its rules are at fault, not the request. -/
def isDefect : Error → Bool
  | calculation _ | malformedTable _ => true
  | _ => false

end Error

/-- How a computation can fail to return a value. -/
inductive Failure where
  | error (error : Error)
  | crash (crash : Crash)
deriving DecidableEq

namespace Failure

def calculation (cause : CalculationError) : Failure :=
  .error (.calculation cause)

def malformed (defect : TableDefect) : Failure :=
  .error (.malformedTable defect)

end Failure

/-- Whether a check passes can be decided by running it. -/
instance decidablePasses : (check : Except Failure Unit) →
    Decidable (check = .ok ())
  | .ok () => .isTrue rfl
  | .error _ => .isFalse nofun

/-- Arithmetic inside a computation: a fault ends it. -/
instance : MonadLift (Except Decimal.Fault) (Except Crash) where
  monadLift
    | .ok a => .ok a
    | .error f => .error (.fault f)

/-- A computation that can only crash, inside one that can also
answer with an error. -/
instance : MonadLift (Except Crash) (Except Failure) where
  monadLift
    | .ok a => .ok a
    | .error c => .error (.crash c)

/-- The value of a computation, nothing where it answers with an error.
A crash is passed on. -/
def Failure.attempt {α : Type} : Except Failure α → OptionT (Except Crash) α
  | .ok a => OptionT.mk (.ok (some a))
  | .error (.error _) => OptionT.mk (.ok none)
  | .error (.crash c) => OptionT.mk (.error c)

end Payroll
