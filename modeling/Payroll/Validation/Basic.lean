/-
Validation: what stands in the way of calculating a request.

The checks look at one thing each and all of them run, so a caller sees
every problem at once. Only if none of them forbids the calculation are
the bounds of the payslip estimated, which add at most one finding:
deductions that could exceed the gross, or a net that could fall below
zero.
-/
import Payroll.Validation.Finding
import Payroll.Validation.NetBounds

namespace Payroll

/-- The longest delay that one day can hold, in minutes. -/
def maxDailyDelay : UInt32 := 24 * 60

/-- The days of a period as an amount. -/
def Period.dayCount (p : Period) : Decimal :=
  .ofNat p.days (Nat.lt_of_le_of_lt p.days_le (by decide))

/-- The hours of a period as an amount. -/
def Period.hourCount (p : Period) : Decimal :=
  .ofNat (24 * p.days)
    (Nat.lt_of_le_of_lt (Nat.mul_le_mul_left 24 p.days_le) (by decide))

namespace Validation

-- ============================================================= the checks

def checkEmployeeId (r : Request) : List Finding :=
  if Text.isBlankText r.employeeId then [.employeeIdMissing] else []

def checkSalary (r : Request) (s : Snapshot) : List Finding :=
  if r.baseSalary ≤ .zero then [.salaryNotPositive r.baseSalary]
  else if r.baseSalary < s.minimumWage then
    [.salaryBelowMinimum r.baseSalary s.minimumWage]
  else []

def checkRegularHours (r : Request) : List Finding :=
  if r.regularHours < .zero then [.negativeRegularHours r.regularHours]
  else if r.period.hourCount < r.regularHours then
    [.hoursExceedPeriod r.regularHours r.period]
  else []

/-- Overtime of one category: positive hours need a rule, and hours
above its cap are announced. -/
def checkCategory (s : Snapshot) (e : Category × Decimal) : List Finding :=
  if e.2 < .zero then [.negativeOvertime e.1 e.2]
  else if e.2 ≈ .zero then []
  else
    match s.overtimeRule? e.1 with
    | none => [.overtimeNotConfigured e.1]
    | some rule =>
      match rule.cap with
      | some cap =>
        if cap < e.2 then [.overtimeAboveCap e.1 e.2 cap] else []
      | none => []

/-- Whether a request has overtime at all. -/
def hasOvertime (r : Request) : Bool :=
  r.overtimeHours.entries.any fun e => decide (.zero < e.2)

def checkOvertime (r : Request) (s : Snapshot) : List Finding :=
  r.overtimeHours.entries.flatMap (checkCategory s)
    ++ if hasOvertime r ∧ r.regularHours ≤ .zero then
        [.overtimeWithoutRegularHours]
      else []

/-- A named amount: both the name and the amount can be wrong. -/
def checkAmount (group : AmountGroup) (e : String × Decimal) :
    List Finding :=
  (if Text.isBlankText e.1 then [.blankName group] else [])
    ++ if e.2 < .zero then [.negativeAmount group e.1 e.2] else []

def checkAmounts (r : Request) : List Finding :=
  r.allowances.entries.flatMap (checkAmount .allowances)
    ++ r.deductions.entries.flatMap (checkAmount .deductions)

/-- The deductions asked for against salary and allowances. -/
def checkDeductions (r : Request) : Except Decimal.Fault (List Finding) := do
  let allowances ← r.totalAllowances
  let gross ← r.baseSalary.add allowances
  let deductions ← r.totalDeductions
  return if gross < deductions then
      [.deductionsExceedEstimate deductions gross]
    else []

def checkPeriod (r : Request) (asOf : Date) : List Finding :=
  if Period.containing asOf < r.period then
    [.periodInFuture r.period asOf]
  else []

def checkDelay (r : Request) : List Finding :=
  let minutes := r.attendance.delayMinutes
  if maxDailyDelay < minutes then [.delayExceedsDay minutes]
  else if DelayTier.moderateMax < minutes then
    [.delayRequiresApproval minutes]
  else []

def checkAbsence (r : Request) : List Finding :=
  let days := r.attendance.absenceDays
  if days < .zero then [.negativeAbsence days]
  else if r.period.dayCount < days then
    [.absenceExceedsPeriod days r.period]
  else if r.attendance.paidAbsence ∧ .zero < days then [.paidAbsence days]
  else []

/-- Everything that the checks find, in their order. -/
def examine (r : Request) (s : Snapshot) (asOf : Date) :
    Except Decimal.Fault (List Finding) := do
  let deductions ← checkDeductions r
  return checkEmployeeId r ++ checkSalary r s ++ checkRegularHours r
    ++ checkOvertime r s ++ checkAmounts r ++ deductions
    ++ checkPeriod r asOf ++ checkDelay r ++ checkAbsence r

/-- What the bounds of the payslip show. -/
def checkBounds (b : NetBounds) : Except Decimal.Fault (List Finding) :=
  if b.gross < b.deductions then
    .ok [.deductionsExceedGross b.deductions b.gross]
  else do
    let total ← b.deductions.add b.withholdings
    return if b.gross < total then
        [.netNegative b.deductions b.withholdings b.gross]
      else []

end Validation

open Validation

/-- The report on a request under a snapshot, on the day `asOf`. -/
def validate (r : Request) (s : Snapshot) (asOf : Date) :
    Except Crash Report := do
  let found ← examine r s asOf
  if found.any (·.blocks) then return .ofFindings found
  else
    match ← NetBounds.estimate r s with
    | none => return .ofFindings found
    | some bounds => do
      let more ← checkBounds bounds
      return .ofFindings (found ++ more)

end Payroll
