/-
What can be wrong with a table of rules. Each constructor is one way in
which a bracket table, a contribution table, an overtime table, a rule
snapshot or a rule book breaks its rules, with the numbers that show
it; `table` names the table and `reason` words the defect.
-/
import Payroll.Category
import Payroll.Calendar.DateText
import Payroll.Decimal.Text

namespace Payroll

/-- Who pays a contribution. -/
inductive Side where
  | employee
  | employer
deriving DecidableEq

def Side.name : Side → String
  | .employee => "employee"
  | .employer => "employer"

/-- The quantities of a snapshot that have to be positive. -/
inductive Divisor where
  | monthlyHours
  | workingDays
  | dailyHours
deriving DecidableEq

def Divisor.name : Divisor → String
  | .monthlyHours => "standard_monthly_hours"
  | .workingDays => "working_days_per_month"
  | .dailyHours => "standard_daily_hours"

/-- One way in which a rule table is malformed. Brackets are counted
from zero. -/
inductive TableDefect where
  -- income tax
  | noBrackets
  | firstBracketAt (start : Decimal)
  | bracketRate (index : Nat) (rate : Decimal)
  | fixedAmount (index : Nat) (written cumulative : Decimal)
  | lastBracketBounded
  | innerBracketUnbounded (index : Nat)
  | emptyBracket (index : Nat) (upper lower : Decimal)
  | bracketGap (index : Nat) (upper next : Decimal)
  -- contributions
  | blankScheme
  | repeatedScheme (scheme : String)
  | schemeRate (scheme : String) (side : Side) (rate : Decimal)
  | schemeCeiling (scheme : String)
  | employeeRates (total : Decimal)
  -- overtime
  | repeatedCategory (category : Category)
  | multiplier (category : Category) (multiplier : Decimal)
  | negativeCap (category : Category)
  -- snapshots and books
  | notPositive (divisor : Divisor) (value : Decimal)
  | longDay (hours : Decimal)
  | negativeWage
  | attendancePolicy
  | noSnapshots
  | repeatedDate (date : Date)
  /-- A defect known only by its wording. -/
  | stated (table reason : String)
deriving DecidableEq

namespace TableDefect

/-- The table that has the defect. -/
def table : TableDefect → String
  | noBrackets | firstBracketAt _ | bracketRate _ _ | fixedAmount _ _ _
  | lastBracketBounded | innerBracketUnbounded _ | emptyBracket _ _ _
  | bracketGap _ _ _ => "tax bracket"
  | blankScheme | repeatedScheme _ | schemeRate _ _ _ | schemeCeiling _
  | employeeRates _ => "social contribution"
  | repeatedCategory _ | multiplier _ _ | negativeCap _ => "overtime rule"
  | notPositive _ _ | longDay _ | negativeWage => "rule snapshot"
  | attendancePolicy => "attendance policy"
  | noSnapshots | repeatedDate _ => "rule book"
  | stated table _ => table

/-- What is wrong, in words. -/
def reason : TableDefect → String
  | noBrackets => "no brackets"
  | firstBracketAt start =>
    s!"first bracket must start at 0, starts at {start.toText}"
  | bracketRate i rate =>
    s!"bracket {i} rate {rate.toText} is outside 0..=1"
  | fixedAmount i written cumulative =>
    s!"bracket {i} fixed amount {written.toText} does not match cumulative "
      ++ s!"tax {cumulative.toText}"
  | lastBracketBounded => "last bracket must be unbounded"
  | innerBracketUnbounded i =>
    s!"bracket {i} is unbounded but is not the last"
  | emptyBracket i upper lower =>
    s!"bracket {i} upper bound {upper.toText} is not above {lower.toText}"
  | bracketGap i upper next =>
    s!"brackets {i} and {i + 1} are not contiguous "
      ++ s!"({upper.toText} vs {next.toText})"
  | blankScheme => "scheme name is blank"
  | repeatedScheme scheme => s!"scheme '{scheme}' is listed twice"
  | schemeRate scheme side rate =>
    s!"scheme '{scheme}' {side.name} rate {rate.toText} is outside 0..=1"
  | schemeCeiling scheme => s!"scheme '{scheme}' ceiling must be positive"
  | employeeRates total =>
    s!"employee rates sum to {total.toText}, must be below 1"
  | repeatedCategory c => s!"category {c.name} has more than one rule"
  | multiplier c m =>
    s!"category {c.name} multiplier must be greater than 1, got {m.toText}"
  | negativeCap c => s!"category {c.name} cap cannot be negative"
  | notPositive divisor value =>
    s!"{divisor.name} must be positive, got {value.toText}"
  | longDay hours =>
    s!"standard_daily_hours cannot exceed 24, got {hours.toText}"
  | negativeWage => "minimum_monthly_wage cannot be negative"
  | attendancePolicy =>
    "minor_penalty must be >= 0 and severe_escalation >= 1"
  | noSnapshots => "no rule snapshots"
  | repeatedDate date =>
    s!"two rule snapshots effective on {date.toText}"
  | stated _ reason => reason

def message (d : TableDefect) : String :=
  s!"Malformed {d.table} table: {d.reason}"

end TableDefect

end Payroll
