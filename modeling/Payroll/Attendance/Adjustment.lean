/-
What attendance costs: a penalty for coming late and a deduction for
unpaid absence.

    minor      a flat amount, zero unless the policy sets one
    moderate   the daily rate times the share of the day that was missed
    severe     the same times the escalation of the policy

No delay costs more than a day's pay. A severe one needs approval
before the payslip is released. Absence costs a day's pay for each day,
or nothing if it is paid leave, which is then recorded by a warning.
-/
import Payroll.Attendance.Basic
import Payroll.Decimal.Division
import Payroll.Error.Basic
import Payroll.Rounding
import Payroll.Warning

namespace Payroll

open Decimal (Fault)

/-- The amounts that a rule snapshot sets for late arrival. -/
structure AttendancePolicy where
  /-- The flat amount for a minor delay. -/
  minorPenalty : Decimal := .zero
  /-- The factor on the penalty for a severe delay. -/
  severeEscalation : Decimal := .ofNat 2
deriving DecidableEq

/-- What one period's attendance costs. -/
structure Adjustment where
  tier : DelayTier
  delayMinutes : UInt32
  /-- The pay of one day, from which the amounts derive. -/
  dailyRate : Decimal
  delayPenalty : Decimal
  absenceDays : Decimal
  paidAbsence : Bool
  absenceDeduction : Decimal
  requiresApproval : Bool
  warnings : List Warning
deriving DecidableEq

/-- Attendance as a payslip reports it. -/
structure AttendanceSummary where
  tier : DelayTier
  delayMinutes : UInt32
  delayPenalty : Decimal
  absenceDays : Decimal
  paidAbsenceDays : Decimal
  absenceDeduction : Decimal
  requiresApproval : Bool
deriving DecidableEq

namespace Adjustment

def minorDelay (minutes : UInt32) : Warning :=
  { code := "MINOR_DELAY"
    message := s!"Late arrival of {minutes.toNat} minutes recorded"
    severity := .low }

def severeDelay (minutes : UInt32) : Warning :=
  { code := "SEVERE_DELAY_REQUIRES_APPROVAL"
    message := s!"Late arrival of {minutes.toNat} minutes exceeds one hour; "
      ++ "the penalty requires approval"
    severity := .high }

def paidAbsenceRecorded (days : Decimal) : Warning :=
  { code := "PAID_ABSENCE_RECORDED"
    message := s!"{days.normalize.toText} days of paid absence recorded "
      ++ "without deduction"
    severity := .low }

/-- The part of a day's pay for the part of the day that was missed. -/
def proportional (minutes : UInt32) (dailyRate dayHours : Decimal) :
    Except Fault Decimal := do
  let dayMinutes ← dayHours.mul (.ofNat 60)
  let scaled ← dailyRate.mul (.ofUInt32 minutes)
  scaled.div dayMinutes

/-- The penalty of a delay, never more than a day's pay. -/
def penalty (policy : AttendancePolicy) (tier : DelayTier)
    (dailyRate share : Decimal) : Except Fault Decimal :=
  match tier with
  | .onTime => .ok .zero
  | .minor => .ok (min policy.minorPenalty dailyRate)
  | .moderate => .ok (min share dailyRate)
  | .severe => do
    let escalated ← share.mul policy.severeEscalation
    return min escalated dailyRate

/-- The warnings about a delay. -/
def delayWarnings (minutes : UInt32) : DelayTier → List Warning
  | .minor => [minorDelay minutes]
  | .severe => [severeDelay minutes]
  | .onTime | .moderate => []

/-- The warnings about an absence. -/
def absenceWarnings (a : Attendance) : List Warning :=
  if a.paidAbsence ∧ .zero < a.absenceDays then
    [paidAbsenceRecorded a.absenceDays]
  else []

/-- The deduction for an absence. -/
def deduction (a : Attendance) (dailyRate : Decimal) :
    Except Fault Decimal :=
  if a.paidAbsence then .ok .zero else a.absenceDays.mul dailyRate

/-- What attendance costs at a daily rate, not yet rounded. -/
def compute (a : Attendance) (dailyRate : Decimal)
    (policy : AttendancePolicy) (dayHours : Decimal) :
    Except Failure Adjustment :=
  if dailyRate < .zero then
    .error (.calculation (.negativeDailyRate dailyRate))
  else if a.absenceDays < .zero then
    .error (.calculation (.negativeAbsence a.absenceDays))
  else if dayHours ≤ .zero then .error (.calculation .noWorkingDay)
  else do
    let tier := a.delayTier
    let share ← proportional a.delayMinutes dailyRate dayHours
    let delayPenalty ← penalty policy tier dailyRate share
    let absenceDeduction ← deduction a dailyRate
    return {
      tier
      delayMinutes := a.delayMinutes
      dailyRate
      delayPenalty
      absenceDays := a.absenceDays
      paidAbsence := a.paidAbsence
      absenceDeduction
      requiresApproval := tier == .severe
      warnings := delayWarnings a.delayMinutes tier ++ absenceWarnings a }

/-- Both amounts rounded to the ledger. -/
def rounded (a : Adjustment) (r : Rounding) : Adjustment :=
  { a with
    delayPenalty := r.round a.delayPenalty
    absenceDeduction := r.round a.absenceDeduction }

def total (a : Adjustment) : Except Fault Decimal :=
  a.delayPenalty.add a.absenceDeduction

def summary (a : Adjustment) : AttendanceSummary :=
  { tier := a.tier
    delayMinutes := a.delayMinutes
    delayPenalty := a.delayPenalty
    absenceDays := a.absenceDays
    paidAbsenceDays := if a.paidAbsence then a.absenceDays else .zero
    absenceDeduction := a.absenceDeduction
    requiresApproval := a.requiresApproval }

end Adjustment

end Payroll
