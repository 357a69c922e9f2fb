/-
Running a batch to its end. A schedule picks the next event from the
state, and `drive` follows it until it picks none. `inOrder` is the
schedule that calculates one request after the other; it cancels the
run after a given employee, if it is told one.

The result accounts for every employee under one of three headings:
paid, failed, or skipped because the run was cancelled first.
-/
import Payroll.Batch.Machine
import Payroll.Pipeline

namespace Payroll.Batch

/-- How a run went as a whole. -/
inductive Status where
  /-- Everybody was paid. -/
  | complete
  /-- Everybody was attempted and somebody failed. -/
  | partialFailure
  /-- The run was cancelled before everybody was attempted. -/
  | cancelled
deriving DecidableEq

def Status.name : Status → String
  | .complete => "complete"
  | .partialFailure => "partial_failure"
  | .cancelled => "cancelled"

/-- What a run came to, by employee. -/
structure Result where
  payslips : Named Payslip
  errors : Named Error
  skipped : Named Unit

namespace Result

def successCount (r : Result) : Nat := r.payslips.size

def failureCount (r : Result) : Nat := r.errors.size

/-- How many employees the run accounted for. -/
def total (r : Result) : Nat :=
  r.successCount + r.failureCount + r.skipped.size

def status (r : Result) : Status :=
  if 0 < r.skipped.size then .cancelled
  else if 0 < r.failureCount then .partialFailure
  else .complete

end Result

/-- The errors of a state, and one for every employee in flight. -/
def State.allErrors (s : State) : Named Error :=
  s.inFlight.names.foldl
    (fun m id => m.insert id (.calculation .noResult)) s.errors

/-- What a state that has nothing left to do came to. Whoever is still
in flight then has lost the calculation. -/
def State.result (s : State) : Result :=
  { payslips := s.payslips, errors := s.allErrors, skipped := s.skipped }

/-- Picks the next event of a run, or ends it. -/
abbrev Schedule := State → Option Event

/-- Follows a schedule to its end. -/
def drive (calculator : Calculator) (schedule : Schedule) (s : State) :
    State :=
  match schedule s with
  | none => s
  | some e =>
    match _hstep : step calculator s e with
    | none => s
    | some s' => drive calculator schedule s'
termination_by s.work
decreasing_by exact work_lt_of_step ‹_›

/-- One request after the other, in the order of the queue; the run is
cancelled once `cancelAfter` has been calculated. -/
def inOrder (cancelAfter : Option String) : Schedule := fun s =>
  let last := s.finished.getLast?.join.map (·.1)
  if s.cancelled = false ∧ last.isSome ∧ last = cancelAfter then
    some .cancel
  else if ¬ s.running.isEmpty then some (.complete 0)
  else if ¬ s.pending.isEmpty then
    some (if s.cancelled then .stop else .dispatch)
  else if ¬ s.finished.isEmpty then some (.collect 0)
  else none

section Run

variable {calculator : Calculator} {requests : List Request}
  {poolSize : Nat} {cancelled : Bool} {cancelAfter : Option String}
  {result : Result}

/-- A run of any calculator. It does not start if its pool cannot be set
up. -/
def run (calculator : Calculator) (requests : List Request)
    (poolSize : Nat) (cancelled : Bool) (cancelAfter : Option String) :
    Except Crash Result :=
  (setUp requests poolSize cancelled).map fun s =>
    (drive calculator (inOrder cancelAfter) s).result

theorem run_eq_ok :
    run calculator requests poolSize cancelled cancelAfter = .ok result
      ↔ ∃ s, setUp requests poolSize cancelled = .ok s
        ∧ (drive calculator (inOrder cancelAfter) s).result = result := by
  unfold run
  cases setUp requests poolSize cancelled with
  | error c => exact iff_of_false nofun fun ⟨_, hs, _⟩ => nomatch hs
  | ok s => simp only [Except.map, Except.ok.injEq, exists_eq_left']

theorem le_maxPermits_of_run
    (h : run calculator requests poolSize cancelled cancelAfter
      = .ok result) : poolSize ≤ maxPermits := by
  obtain ⟨s, hs, -⟩ := run_eq_ok.1 h
  exact (setUp_eq_ok.1 hs).1

end Run

/-- The payslips of a batch under one rule book. -/
def compute (book : RuleBook) (asOf : Date) (requests : List Request)
    (poolSize : Nat) (cancelled : Bool) : Except Crash Result :=
  run (fun r => calculate r book asOf) requests poolSize cancelled none

end Payroll.Batch
