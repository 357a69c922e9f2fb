/-
Reports on a request: the errors that forbid calculating it and the
warnings that do not, each in the order in which they were found.
-/

namespace Payroll

/-- Whether an issue is bad input or breaks a rule of payroll. -/
inductive IssueKind where
  | validation
  | businessRule
deriving DecidableEq

def IssueKind.name : IssueKind → String
  | .validation => "validation"
  | .businessRule => "business_rule"

/-- The kind of a name. -/
def IssueKind.ofName? (s : String) : Option IssueKind :=
  [IssueKind.validation, .businessRule].find? (·.name == s)

/-- One problem found in a request. -/
structure Issue where
  kind : IssueKind
  /-- A stable code for programs. -/
  code : String
  /-- The part of the request at fault. -/
  field : String
  /-- A description for people. -/
  message : String
deriving DecidableEq

/-- Everything found in a request. -/
structure Report where
  valid : Bool
  errors : List Issue
  warnings : List Issue
deriving DecidableEq

namespace Report

/-- Nothing found. -/
def empty : Report := { valid := true, errors := [], warnings := [] }

/-- A report with one error is not valid. -/
def addError (r : Report) (i : Issue) : Report :=
  { r with valid := false, errors := r.errors ++ [i] }

def addWarning (r : Report) (i : Issue) : Report :=
  { r with warnings := r.warnings ++ [i] }

def hasBusinessRuleViolation (r : Report) : Bool :=
  r.errors.any (·.kind == .businessRule)

def hasError (r : Report) (code : String) : Bool :=
  r.errors.any (·.code == code)

/-- Every error in one line. -/
def summary (r : Report) : String :=
  "; ".intercalate (r.errors.map fun i => s!"{i.field}: {i.message}")

end Report

end Payroll
