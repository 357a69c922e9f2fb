/-
Attendance of one employee in one period: minutes of late arrival and
days of absence. The minutes fall into tiers, and the tier decides how
a delay is paid for.
-/
import Payroll.Calendar.ClockTime
import Payroll.Decimal.Basic

namespace Payroll

/-- How late is late. -/
inductive DelayTier where
  | onTime
  | minor
  | moderate
  | severe
deriving DecidableEq

namespace DelayTier

/-- The longest minor delay, in minutes. -/
def minorMax : UInt32 := 15

/-- The longest moderate delay, in minutes. -/
def moderateMax : UInt32 := 60

def ofMinutes (minutes : UInt32) : DelayTier :=
  if minutes = 0 then onTime
  else if minutes ≤ minorMax then minor
  else if minutes ≤ moderateMax then moderate
  else severe

def name : DelayTier → String
  | onTime => "none"
  | minor => "minor"
  | moderate => "moderate"
  | severe => "severe"

/-- The tier as a formula shows it. -/
def label : DelayTier → String
  | onTime => "None"
  | minor => "Minor"
  | moderate => "Moderate"
  | severe => "Severe"

/-- The tier of a name. -/
def ofName? (s : String) : Option DelayTier :=
  [onTime, minor, moderate, severe].find? (·.name == s)

end DelayTier

/-- What is known of an employee's attendance in a period. With nothing
known there is no delay and no absence. -/
structure Attendance where
  delayMinutes : UInt32 := 0
  /-- Days absent; half days count as halves. -/
  absenceDays : Decimal := .zero
  /-- Whether the absence is paid leave. -/
  paidAbsence : Bool := false
deriving DecidableEq

namespace Attendance

def delayTier (a : Attendance) : DelayTier := .ofMinutes a.delayMinutes

/-- The attendance of an arrival at `actual` where `scheduled` was
agreed. Coming early is no delay. -/
def ofClockIn (scheduled actual : ClockTime) : Attendance :=
  { delayMinutes := .ofNat (scheduled.minutesLate actual) }

end Attendance

end Payroll
