/-
The payroll service: rules from one side, employee records from the
other. A record is what is known of an employee for a period; a later
record of the same employee and period takes the place of an earlier
one.

The rules may be unavailable, which is then the answer to everything
that needs them. A batch reads them once, so all of its payslips follow
the same book.
-/
import Payroll.Batch.Run

namespace Payroll

/-- Requests on record, at most one for an employee and a period. -/
structure Records where
  requests : List Request
  distinct : requests.Pairwise fun a b =>
    ¬(a.employeeId = b.employeeId ∧ a.period = b.period)

namespace Records

def empty : Records := { requests := [], distinct := .nil }

/-- Whether a request is about an employee and a period. -/
def concerns (id : String) (period : Period) (r : Request) : Bool :=
  r.employeeId = id ∧ r.period = period

/-- Puts a request on record, in the place of an earlier one. -/
def insert (records : Records) (r : Request) : Records :=
  { requests :=
      records.requests.filter (!concerns r.employeeId r.period ·) ++ [r]
    distinct := by
      rw [List.pairwise_append]
      refine ⟨records.distinct.filter _, by simp, ?_⟩
      intro a ha b hb
      obtain ⟨-, hne⟩ := List.mem_filter.1 ha
      rw [List.mem_singleton.1 hb]
      rintro ⟨hid, hperiod⟩
      simp [concerns, hid, hperiod] at hne }

/-- The records of a list, the last one standing for its employee and
period. -/
def ofList (l : List Request) : Records := l.foldl insert empty

def size (records : Records) : Nat := records.requests.length

/-- The request on record for an employee and a period. -/
def lookup (records : Records) (id : String) (period : Period) :
    Except Error Request :=
  match records.requests.find? (concerns id period) with
  | some r => .ok r
  | none => .error (.employeeNotFound id period)

end Records

structure Service where
  /-- The current rules, or why there are none. -/
  rules : Except Error RuleBook
  records : Records
  /-- How many employees a batch calculates at once. -/
  poolSize : Nat := 8
  /-- Today's date. -/
  asOf : Date

namespace Service

/-- The payslip of an employee for a period. -/
def calculatePayroll (s : Service) (id : String) (period : Period) :
    Except Failure Payslip :=
  match s.rules with
  | .error e => .error (.error e)
  | .ok book =>
    match s.records.lookup id period with
    | .error e => .error (.error e)
    | .ok r => calculate r book s.asOf

/-- The payslips of a batch. -/
def calculateBatch (s : Service) (requests : List Request)
    (cancelled : Bool) : Except Failure Batch.Result :=
  match s.rules with
  | .error e => .error (.error e)
  | .ok book => Batch.compute book s.asOf requests s.poolSize cancelled

end Service

end Payroll
