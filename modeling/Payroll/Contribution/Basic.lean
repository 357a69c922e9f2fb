/-
Social contributions. Every scheme takes its two rates of the gross
salary, capped at the ceiling of the scheme if it has one, and no
scheme looks at another. The employee's share is withheld; the
employer's is a cost on top of the salary.
-/
import Payroll.Error.Basic
import Payroll.Named
import Payroll.Rounding
import Payroll.Text.Blank

namespace Payroll

open Decimal (Fault)

/-- The rates of one scheme. -/
structure ContributionRate where
  scheme : String
  employeeRate : Decimal
  employerRate : Decimal
  /-- The income above which nothing more is due. -/
  ceiling : Option Decimal
deriving DecidableEq

/-- The shares of one scheme. -/
structure ContributionLine where
  scheme : String
  /-- The gross salary under the ceiling. -/
  base : Decimal
  ceiling : Option Decimal
  employeeRate : Decimal
  employerRate : Decimal
  employeeAmount : Decimal
  employerAmount : Decimal
deriving DecidableEq

/-- The shares of every scheme, in the order of the rules. -/
structure Contributions where
  lines : List ContributionLine
deriving DecidableEq

namespace ContributionRate

/-- The part of a gross salary that a scheme looks at. -/
def base (r : ContributionRate) (gross : Decimal) : Decimal :=
  match r.ceiling with
  | some c => min gross c
  | none => gross

/-- The shares of a scheme in a gross salary. -/
def line (r : ContributionRate) (gross : Decimal) :
    Except Fault ContributionLine := do
  let base := r.base gross
  let employeeAmount ← base.mul r.employeeRate
  let employerAmount ← base.mul r.employerRate
  return {
    scheme := r.scheme
    base
    ceiling := r.ceiling
    employeeRate := r.employeeRate
    employerRate := r.employerRate
    employeeAmount
    employerAmount }

/-- Checks one scheme, `seen` being the names before it. -/
def check (seen : List String) (r : ContributionRate) :
    Except Failure Unit :=
  if Text.isBlankText r.scheme then .error (.malformed .blankScheme)
  else if r.scheme ∈ seen then
    .error (.malformed (.repeatedScheme r.scheme))
  else if r.employeeRate < .zero ∨ .one < r.employeeRate then
    .error (.malformed (.schemeRate r.scheme .employee r.employeeRate))
  else if r.employerRate < .zero ∨ .one < r.employerRate then
    .error (.malformed (.schemeRate r.scheme .employer r.employerRate))
  else
    match r.ceiling with
    | some c =>
      if c ≤ .zero then .error (.malformed (.schemeCeiling r.scheme))
      else .ok ()
    | none => .ok ()

/-- Checks schemes one after the other. -/
def checkEach (seen : List String) :
    List ContributionRate → Except Failure Unit
  | [] => .ok ()
  | r :: rest => do
    r.check seen
    checkEach (r.scheme :: seen) rest

/-- Checks a contribution table: distinct names that are not blank,
rates between 0 and 1, positive ceilings, and employee rates that leave
something of the salary. -/
def checkAll (rates : List ContributionRate) : Except Failure Unit := do
  checkEach [] rates
  let total ← Decimal.sum (rates.map (·.employeeRate))
  if .one ≤ total then .error (.malformed (.employeeRates total))
  else .ok ()

end ContributionRate

namespace Contributions

/-- The contributions of every scheme on a gross salary, not yet
rounded. -/
def compute (gross : Decimal) (rates : List ContributionRate) :
    Except Failure Contributions :=
  if gross < .zero then .error (.calculation (.negativeGross gross))
  else do
    let lines ← rates.mapM (·.line gross)
    return { lines }

def employeeByScheme (c : Contributions) : Named Decimal :=
  .ofList (c.lines.map fun l => (l.scheme, l.employeeAmount))

def employerByScheme (c : Contributions) : Named Decimal :=
  .ofList (c.lines.map fun l => (l.scheme, l.employerAmount))

def employeeTotal (c : Contributions) : Except Fault Decimal :=
  Decimal.sum (c.lines.map (·.employeeAmount))

def employerTotal (c : Contributions) : Except Fault Decimal :=
  Decimal.sum (c.lines.map (·.employerAmount))

/-- Every share rounded to the ledger. -/
def rounded (c : Contributions) (r : Rounding) : Contributions :=
  { lines := c.lines.map fun l =>
      { l with
        employeeAmount := r.round l.employeeAmount
        employerAmount := r.round l.employerAmount } }

end Contributions

end Payroll
