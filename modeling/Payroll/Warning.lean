/-
Warnings that travel with a payslip. They never stop a calculation; the
severity says how much attention one needs.
-/

namespace Payroll

inductive Severity where
  /-- For information. -/
  | low
  /-- Should be looked at. -/
  | medium
  /-- Must be looked at before the payslip is released. -/
  | high
deriving DecidableEq

def Severity.name : Severity → String
  | .low => "low"
  | .medium => "medium"
  | .high => "high"

/-- The severity of a name. -/
def Severity.ofName? (s : String) : Option Severity :=
  [Severity.low, .medium, .high].find? (·.name == s)

structure Warning where
  code : String
  message : String
  severity : Severity
deriving DecidableEq

end Payroll
