/-
Batch runs as a machine. A batch dispatches the requests of a queue in
order, each on a permit of a bounded pool; calculations end in any
order and give their permit back; once everything is dispatched the
outcomes are collected. Cancellation may fire at any moment. From then
on nothing is dispatched and what still waits is skipped, while what
runs may end and is collected.

A batch begins once its pool is set up, and a pool has its limits
(`setUp`).

A calculation can also be lost: its task ends and leaves no outcome. It
is known by the employees who are in flight, which is everybody who was
dispatched and whose outcome was not collected.

`step` is the whole rule of the machine: which events a state allows
and what each one does. Who picks the events is left open, so whatever
holds of every reachable state holds under every schedule.

Every event but cancelling moves one request forward, and a run can be
cancelled once; `State.work` counts what is left and falls with each
step (`work_lt_of_step`), so every run ends.
-/
import Payroll.Error.Basic
import Payroll.Payslip.Basic
import Payroll.Request

namespace Payroll.Batch

/-- The calculation that a batch runs for each employee. -/
abbrev Calculator := Request → Except Failure Payslip

/-- What a batch reports for one employee. -/
abbrev Outcome := Except Error Payslip

/-- Runs one calculation by itself: where it crashes, that is an error
of its employee and of nobody else. -/
def isolate (calculator : Calculator) (r : Request) : Outcome :=
  match calculator r with
  | .ok p => .ok p
  | .error (.error e) => .error e
  | .error (.crash c) => .error (.calculation (.crashed c))

structure State where
  /-- Requests that wait to be dispatched, in order. -/
  pending : List Request
  /-- Requests being calculated; each one holds a permit. -/
  running : List Request
  /-- Calculations that ended and are not collected yet, oldest first;
  one that was lost left no outcome. -/
  finished : List (Option (String × Outcome))
  /-- Employees who were dispatched and have no outcome collected. -/
  inFlight : Named Unit
  payslips : Named Payslip
  errors : Named Error
  /-- Employees whose requests were never dispatched. -/
  skipped : Named Unit
  cancelled : Bool
  permits : Nat

/-- How often an employee occurs in a batch. -/
def occurrences (requests : List Request) (id : String) : Nat :=
  requests.countP (·.employeeId == id)

/-- The requests that a batch calculates: those whose employee occurs
once. -/
def queue (requests : List Request) : List Request :=
  requests.filter fun r => occurrences requests r.employeeId == 1

/-- The errors of employees that occur more than once. -/
def duplicates (requests : List Request) : Named Error :=
  .ofList <|
    (requests.filter fun r => occurrences requests r.employeeId != 1).map
      fun r => (r.employeeId, .duplicateRequest r.employeeId)

/-- A batch before its first event. The pool has at least one
permit. -/
def start (requests : List Request) (poolSize : Nat) (cancelled : Bool) :
    State :=
  { pending := queue requests
    running := []
    finished := []
    inFlight := .empty
    payslips := .empty
    errors := duplicates requests
    skipped := .empty
    cancelled
    permits := max 1 poolSize }

/-- Starts a batch, if its pool can be set up. -/
def setUp (requests : List Request) (poolSize : Nat) (cancelled : Bool) :
    Except Crash State :=
  if maxPermits < poolSize then .error .tooManyPermits
  else .ok (start requests poolSize cancelled)

theorem setUp_eq_ok {requests : List Request} {poolSize : Nat}
    {cancelled : Bool} {s : State} :
    setUp requests poolSize cancelled = .ok s
      ↔ poolSize ≤ maxPermits ∧ start requests poolSize cancelled = s := by
  unfold setUp
  split
  · rename_i hlt
    exact iff_of_false nofun fun h => Nat.not_le_of_lt hlt h.1
  · rename_i hle
    rw [Except.ok.injEq]
    exact (and_iff_right (Nat.le_of_not_lt hle)).symm

inductive Event where
  /-- The first waiting request takes a permit and starts. -/
  | dispatch
  /-- The `i`-th running calculation ends and returns its permit. -/
  | complete (i : Nat)
  /-- The `i`-th running calculation is lost and returns its permit. -/
  | lose (i : Nat)
  /-- The `i`-th that ended is collected, once nothing waits. -/
  | collect (i : Nat)
  /-- The run is cancelled. -/
  | cancel
  /-- A cancelled run gives up what still waits. -/
  | stop
deriving DecidableEq

/-- Files the outcome of an employee. -/
def State.record (s : State) (id : String) : Outcome → State
  | .ok p => { s with payslips := s.payslips.insert id p }
  | .error e => { s with errors := s.errors.insert id e }

/-- What an event does, if the state allows it. -/
def step (calculator : Calculator) (s : State) : Event → Option State
  | .dispatch =>
    match s.pending with
    | r :: rest =>
      if s.cancelled = false ∧ 0 < s.permits then
        some { s with
          pending := rest
          running := s.running ++ [r]
          inFlight := s.inFlight.insert r.employeeId ()
          permits := s.permits - 1 }
      else none
    | [] => none
  | .complete i =>
    match s.running[i]? with
    | some r =>
      some { s with
        running := s.running.eraseIdx i
        finished :=
          s.finished ++ [some (r.employeeId, isolate calculator r)]
        permits := s.permits + 1 }
    | none => none
  | .lose i =>
    if i < s.running.length then
      some { s with
        running := s.running.eraseIdx i
        finished := s.finished ++ [none]
        permits := s.permits + 1 }
    else none
  | .collect i =>
    match s.pending, s.finished[i]? with
    | [], some (some (id, outcome)) =>
      some ({ s with
        finished := s.finished.eraseIdx i
        inFlight := s.inFlight.erase id }.record id outcome)
    | [], some none => some { s with finished := s.finished.eraseIdx i }
    | _, _ => none
  | .cancel => if s.cancelled then none else some { s with cancelled := true }
  | .stop =>
    match s.pending with
    | r :: rest =>
      if s.cancelled then
        some { s with
          pending := []
          skipped := (r :: rest).foldl
            (fun m r => m.insert r.employeeId ()) s.skipped }
      else none
    | [] => none

/-- The states that some schedule leads to. -/
inductive Reachable (calculator : Calculator) (s₀ : State) : State → Prop
  | start : Reachable calculator s₀ s₀
  | step {s s' : State} {e : Event} (h : Reachable calculator s₀ s)
      (hstep : step calculator s e = some s') : Reachable calculator s₀ s'

-- =============================================================== progress

/-- What is left to do: three events for a request that waits, two for
one that runs, one for one that ended, and one to cancel. -/
def State.work (s : State) : Nat :=
  3 * s.pending.length + 2 * s.running.length + s.finished.length
    + if s.cancelled then 0 else 1

@[simp] theorem work_record (s : State) (id : String) (o : Outcome) :
    (s.record id o).work = s.work := by
  cases o <;> rfl

/-- Every event leaves less to do. -/
theorem work_lt_of_step {calculator : Calculator} {s s' : State}
    {e : Event} (h : step calculator s e = some s') : s'.work < s.work := by
  cases e with
  | dispatch =>
    simp only [step] at h
    split at h
    · rename_i r rest hp
      split at h
      · cases h
        simp [State.work, hp]
        omega
      · cases h
    · cases h
  | complete i =>
    simp only [step] at h
    split at h
    · rename_i r hr
      cases h
      have hi := (List.getElem?_eq_some_iff.1 hr).1
      simp only [State.work, List.length_eraseIdx, hi, ↓reduceIte,
        List.length_append, List.length_cons, List.length_nil]
      omega
    · cases h
  | lose i =>
    simp only [step] at h
    split at h
    · rename_i hi
      cases h
      simp only [State.work, List.length_eraseIdx, hi, ↓reduceIte,
        List.length_append, List.length_cons, List.length_nil]
      omega
    · cases h
  | collect i =>
    simp only [step] at h
    split at h
    · rename_i id o hp hf
      cases h
      have hi := (List.getElem?_eq_some_iff.1 hf).1
      rw [work_record]
      simp only [State.work, List.length_eraseIdx, hi, ↓reduceIte]
      omega
    · rename_i hp hf
      cases h
      have hi := (List.getElem?_eq_some_iff.1 hf).1
      simp only [State.work, List.length_eraseIdx, hi, ↓reduceIte]
      omega
    · cases h
  | cancel =>
    simp only [step] at h
    split at h
    · cases h
    · rename_i hc
      cases h
      simp [State.work, hc]
  | stop =>
    simp only [step] at h
    split at h
    · rename_i r rest hp
      split at h
      · cases h
        simp [State.work, hp]
      · cases h
    · cases h

end Payroll.Batch
