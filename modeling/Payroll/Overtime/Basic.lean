/-
Overtime pay. Each category is priced by itself:

    paid hours = min(hours, cap)
    amount     = paid hours * hourly rate * multiplier

Hours above a cap are not paid, and every cut is reported by a warning
that names the category and the hours lost.
-/
import Payroll.Error.Basic
import Payroll.Rounding
import Payroll.Warning

namespace Payroll

open Decimal (Fault)

/-- How one category is paid. -/
structure OvertimeRule where
  category : Category
  /-- The factor on the hourly rate. -/
  multiplier : Decimal
  /-- The most hours paid in a period. -/
  cap : Option Decimal
deriving DecidableEq

/-- The pay of one category. -/
structure OvertimeLine where
  category : Category
  requestedHours : Decimal
  paidHours : Decimal
  hourlyRate : Decimal
  multiplier : Decimal
  amount : Decimal
deriving DecidableEq

/-- The pay of every category with hours, in reporting order. -/
structure Overtime where
  lines : List OvertimeLine
  /-- The sum of the amounts of the lines. -/
  total : Decimal
  warnings : List Warning
deriving DecidableEq

namespace OvertimeRule

/-- The rule of a category. -/
def find? (rules : List OvertimeRule) (c : Category) :
    Option OvertimeRule :=
  rules.find? (·.category == c)

/-- Checks overtime rules one after the other, `seen` being the
categories before them: one rule for each category, multipliers above
one, caps that are not negative. -/
def checkEach (seen : List Category) :
    List OvertimeRule → Except Failure Unit
  | [] => .ok ()
  | r :: rest =>
    if r.category ∈ seen then
      .error (.malformed (.repeatedCategory r.category))
    else if r.multiplier ≤ .one then
      .error (.malformed (.multiplier r.category r.multiplier))
    else
      match r.cap with
      | some cap =>
        if cap < .zero then .error (.malformed (.negativeCap r.category))
        else checkEach (r.category :: seen) rest
      | none => checkEach (r.category :: seen) rest

def checkAll (rules : List OvertimeRule) : Except Failure Unit :=
  checkEach [] rules

end OvertimeRule

namespace Overtime

/-- The code of the warning about hours above a cap. -/
def clampedCode : String := "OVERTIME_HOURS_CLAMPED"

/-- The warning about hours of a category that were not paid. -/
def clamped (c : Category) (cap excess : Decimal) : Warning :=
  { code := clampedCode
    message := s!"{c.name} overtime clamped to {cap.normalize.toText} hours: "
      ++ s!"{excess.normalize.toText} hours above the cap are not "
      ++ "compensated at this tier"
    severity := .medium }

/-- The hours that a rule pays, and the warning if it pays less than
was asked for. -/
def pay (rule : OvertimeRule) (hours : Decimal) :
    Except Fault (Decimal × Option Warning) :=
  match rule.cap with
  | some cap =>
    if cap < hours then do
      let excess ← hours.sub cap
      return (cap, some (clamped rule.category cap excess))
    else .ok (hours, none)
  | none => .ok (hours, none)

/-- The line of one category: none without hours. -/
def line (hourlyRate : Decimal) (rules : List OvertimeRule)
    (c : Category) (hours : Decimal) :
    Except Failure (Option (OvertimeLine × Option Warning)) :=
  if hours < .zero then .error (.calculation (.negativeOvertime c hours))
  else if hours ≈ .zero then .ok none
  else
    match OvertimeRule.find? rules c with
    | none => .error (.calculation (.noOvertimeRule c))
    | some rule => do
      let (paidHours, warning) ← pay rule hours
      let base ← paidHours.mul hourlyRate
      let amount ← base.mul rule.multiplier
      let line : OvertimeLine :=
        { category := c, requestedHours := hours, paidHours, hourlyRate
          multiplier := rule.multiplier, amount }
      return some (line, warning)

/-- The overtime pay of every category, not yet rounded. -/
def compute (hours : ByCategory Decimal) (hourlyRate : Decimal)
    (rules : List OvertimeRule) : Except Failure Overtime :=
  if hourlyRate < .zero then
    .error (.calculation (.negativeHourlyRate hourlyRate))
  else do
    let found ← hours.entries.mapM fun e => line hourlyRate rules e.1 e.2
    let priced := found.filterMap id
    let lines := priced.map (·.1)
    let total ← Decimal.sum (lines.map (·.amount))
    return { lines, total, warnings := priced.filterMap (·.2) }

def amountByCategory (o : Overtime) : ByCategory Decimal :=
  .ofList (o.lines.map fun l => (l.category, l.amount))

/-- Every line rounded to the ledger, and the total of the rounded
lines. -/
def rounded (o : Overtime) (r : Rounding) : Except Fault Overtime := do
  let lines := o.lines.map fun l => { l with amount := r.round l.amount }
  let total ← Decimal.sum (lines.map (·.amount))
  return { lines, total, warnings := o.warnings }

end Overtime

end Payroll
