/-
What a batch reports at its end. `Accounted` is the contract: everybody
of the batch is under one heading, the first `k` of the queue have an
outcome, the rest is skipped, employees who occur more than once are
refused, and the status is read off the headings.

Two things can only be told at the end. An employee still in flight has
lost the calculation and is reported as failed; and what waits by then
is nobody. So the report is read off `Accounts` at a state that is
`Done`.

# The headings

Names under a heading are distinct, so a name occurs as often in the
three lists as it has headings. Each employee of the batch has one: by
how often the employee occurs, and for those who occur once, by the
place in the queue (`headings_count`).

Whoever occurs more than once has an error that says so. The error does
not tell the other way round: a calculator may answer the same of a
request that is the only one of its employee, and what a calculator
answers is what is reported (`duplicate_only`).
-/
import Payroll.Proofs.Batch.Accounting
import Payroll.Proofs.Sequencing
import Payroll.Rules.Senegal
import Mathlib.Data.List.Dedup

namespace Payroll.Batch

variable {calculator : Calculator} {requests : List Request} {k : Nat}

-- ============================================================== contract

namespace Result

/-- The names under the three headings. -/
def headings (r : Result) : List String :=
  r.payslips.names ++ r.errors.names ++ r.skipped.names

/-- What a result reports for an employee who was not skipped. -/
def outcome? (r : Result) (id : String) : Option Outcome :=
  ((r.payslips.get? id).map .ok).or ((r.errors.get? id).map .error)

end Result

/-- The result of a batch that dispatched `k` requests; calculations may
be lost only where `lost` allows it. -/
structure Accounted (calculator : Calculator) (requests : List Request)
    (k : Nat) (lost : Prop) (result : Result) : Prop where
  le_length : k ≤ (queue requests).length
  /-- Everybody of the batch has one heading, and nobody else has. -/
  headings : ∀ id, result.headings.count id
    = if id ∈ employees requests then 1 else 0
  successCount : result.successCount = result.payslips.names.length
  failureCount : result.failureCount = result.errors.names.length
  total : result.total = (employees requests).dedup.length
  /-- Whoever occurs more than once is refused, and was never in the
  queue. -/
  duplicate : ∀ id, 1 < occurrences requests id →
    result.errors.get? id = some (.duplicateRequest id)
      ∧ id ∉ result.payslips.names ∧ id ∉ result.skipped.names
      ∧ id ∉ employees (queue requests)
  /-- Nobody else is refused like this, unless the calculator itself
  answers so. -/
  duplicate_only : ∀ id id',
    result.errors.get? id = some (.duplicateRequest id') →
    1 < occurrences requests id ∧ id' = id
      ∨ ∃ r ∈ (queue requests).take k, r.employeeId = id
        ∧ calculator r = .error (.error (.duplicateRequest id'))
  /-- The first `k` have the outcome of their own calculation. -/
  outcome : ∀ r ∈ (queue requests).take k,
    result.outcome? r.employeeId = some (isolate calculator r)
      ∨ lost ∧ result.outcome? r.employeeId
          = some (.error (.calculation .noResult))
  /-- The others are skipped. -/
  skipped : ∀ id, id ∈ result.skipped.names
    ↔ id ∈ employees ((queue requests).drop k)
  cancelled : result.status = .cancelled ↔ result.skipped.names ≠ []
  partialFailure : result.status = .partialFailure
    ↔ result.skipped.names = [] ∧ result.errors.names ≠ []

-- ============================================================== the end

theorem get?_allErrors (s : State) (id : String) :
    s.allErrors.get? id
      = if s.inFlight.get? id = some () then
          some (.calculation .noResult)
        else s.errors.get? id := by
  rw [State.allErrors, Named.get?_foldl_insert]
  simp only [Named.mem_names_unit_iff]

theorem mem_allErrors_iff {s : State} {id : String} :
    id ∈ s.allErrors.names
      ↔ s.inFlight.get? id = some () ∨ id ∈ s.errors.names := by
  rw [Named.mem_names_iff, Named.mem_names_iff, get?_allErrors]
  split
  · rename_i hflying
    exact ⟨fun _ => .inl hflying, fun _ => ⟨_, rfl⟩⟩
  · rename_i hlanded
    exact ⟨.inr, fun h => h.resolve_left hlanded⟩

theorem Accounts.mem_skipped_iff {s : State} {id : String}
    (hs : Accounts calculator requests k s) (hdone : s.Done) :
    id ∈ s.skipped.names ↔ id ∈ employees ((queue requests).drop k) := by
  obtain ⟨hpending, -, -⟩ := hdone
  rcases hs.waiting with ⟨hdrop, hnone⟩ | ⟨-, -, hskipped⟩
  · rw [← hdrop, hpending, hnone]
    exact .rfl
  · rw [Named.mem_names_unit_iff]
    exact hskipped id

/-- A run that is done and was not cancelled has dispatched the whole
queue. -/
theorem Accounts.cancelled_of_lt {s : State}
    (hs : Accounts calculator requests k s) (hdone : s.Done)
    (hlt : k < (queue requests).length) : s.cancelled = true := by
  obtain ⟨hpending, -, -⟩ := hdone
  rcases hs.waiting with ⟨hdrop, -⟩ | ⟨-, hcancelled, -⟩
  · rw [hpending, eq_comm, List.drop_eq_nil_iff] at hdrop
    omega
  · exact hcancelled

/-- Whoever was not dispatched has nothing filed but what the batch
began with. -/
theorem Accounts.of_not_dispatched {s : State} {id : String}
    (hs : Accounts calculator requests k s)
    (htake : id ∉ employees ((queue requests).take k)) :
    s.payslips.get? id = none ∧ s.inFlight.get? id = none
      ∧ s.errors.get? id = (duplicates requests).get? id := by
  refine ⟨?_, ?_, ?_⟩
  · rw [Option.eq_none_iff_forall_ne_some]
    intro p hp
    exact htake ((hs.payslips id p).1 hp).2.mem
  · rw [Option.eq_none_iff_forall_ne_some]
    rintro ⟨⟩ hflying
    exact htake (hs.inFlight id hflying)
  · refine Option.ext fun e => (hs.errors id e).trans ?_
    exact or_iff_left fun hcollected => htake hcollected.2.mem

/-- Whoever is among the first `k` and out of flight has the answer of
the calculation filed, and nothing else. -/
theorem Accounts.of_collected {s : State} {r : Request}
    (hs : Accounts calculator requests k s)
    (hr : r ∈ (queue requests).take k)
    (hlanded : s.inFlight.get? r.employeeId = none) :
    (∃ p, isolate calculator r = .ok p
        ∧ s.payslips.get? r.employeeId = some p
        ∧ s.errors.get? r.employeeId = none)
      ∨ ∃ e, isolate calculator r = .error e
        ∧ s.payslips.get? r.employeeId = none
        ∧ s.errors.get? r.employeeId = some e := by
  have hanswer : ∀ o, Collected calculator ((queue requests).take k)
      s.inFlight r.employeeId o ↔ o = isolate calculator r := by
    intro o
    rw [Collected, answers_unique ⟨r, hr, rfl, rfl⟩]
    exact and_iff_right hlanded
  have hsingle : (duplicates requests).get? r.employeeId = none := by
    have honce := occurs_once_of_mem_take (mem_employees hr)
    rw [get?_duplicates, if_neg (by omega)]
  cases ho : isolate calculator r with
  | ok p =>
      refine .inl ⟨p, rfl, ?_, ?_⟩
      · rw [hs.payslips, hanswer, ho]
      · rw [Option.eq_none_iff_forall_ne_some]
        intro e he
        rw [hs.errors, hsingle, hanswer, ho] at he
        simp only [reduceCtorEq, or_self] at he
  | error e =>
      refine .inr ⟨e, rfl, ?_, ?_⟩
      · rw [Option.eq_none_iff_forall_ne_some]
        intro p hp
        rw [hs.payslips, hanswer, ho] at hp
        cases hp
      · rw [hs.errors, hanswer, ho]
        exact .inr rfl

-- ============================================================== headings

theorem count_headings (r : Result) (id : String) :
    r.headings.count id = (if id ∈ r.payslips.names then 1 else 0)
      + (if id ∈ r.errors.names then 1 else 0)
      + (if id ∈ r.skipped.names then 1 else 0) := by
  rw [Result.headings, List.count_append, List.count_append,
    (Named.names_nodup _).count, (Named.names_nodup _).count,
    (Named.names_nodup _).count]

/-- An employee of the first `k` is paid or failed, and not both. -/
theorem Accounts.paid_xor_failed {s : State} {r : Request}
    (hs : Accounts calculator requests k s)
    (hr : r ∈ (queue requests).take k) :
    r.employeeId ∈ s.result.payslips.names
        ∧ r.employeeId ∉ s.result.errors.names
      ∨ r.employeeId ∉ s.result.payslips.names
        ∧ r.employeeId ∈ s.result.errors.names := by
  show r.employeeId ∈ s.payslips.names ∧ r.employeeId ∉ s.allErrors.names
    ∨ r.employeeId ∉ s.payslips.names ∧ r.employeeId ∈ s.allErrors.names
  cases hflight : s.inFlight.get? r.employeeId with
  | some u =>
      obtain ⟨hpaid, -⟩ := hs.unfiled hflight
      exact .inr ⟨Named.not_mem_names_iff.2 hpaid,
        mem_allErrors_iff.2 (.inl hflight)⟩
  | none =>
      rcases hs.of_collected hr hflight with
        ⟨p, -, hpaid, hfailed⟩ | ⟨e, -, hpaid, hfailed⟩
      · refine .inl ⟨Named.mem_names_iff.2 ⟨p, hpaid⟩, ?_⟩
        rw [mem_allErrors_iff, not_or, hflight, Named.not_mem_names_iff]
        exact ⟨nofun, hfailed⟩
      · exact .inr ⟨Named.not_mem_names_iff.2 hpaid,
          mem_allErrors_iff.2 (.inr (Named.mem_names_iff.2 ⟨e, hfailed⟩))⟩

theorem Accounts.headings_count {s : State}
    (hs : Accounts calculator requests k s) (hdone : s.Done)
    (id : String) :
    s.result.headings.count id
      = if id ∈ employees requests then 1 else 0 := by
  have hskip : id ∈ s.result.skipped.names
      ↔ id ∈ employees ((queue requests).drop k) :=
    hs.mem_skipped_iff hdone
  rw [count_headings]
  by_cases htake : id ∈ employees ((queue requests).take k)
  · have hmem : id ∈ employees requests := by
      rw [mem_employees_iff_occurs, occurs_once_of_mem_take htake]
      exact Nat.one_pos
    have hnot : id ∉ s.result.skipped.names :=
      fun h => not_mem_drop_of_mem_take htake (hskip.1 h)
    obtain ⟨r, hr, rfl⟩ := mem_employees_iff.1 htake
    rw [if_neg hnot, if_pos hmem]
    rcases hs.paid_xor_failed hr with ⟨hpaid, hok⟩ | ⟨hunpaid, hfailed⟩
    · rw [if_pos hpaid, if_neg hok]
    · rw [if_neg hunpaid, if_pos hfailed]
  · obtain ⟨hpaid, hflight, herrors⟩ := hs.of_not_dispatched htake
    have hunpaid : id ∉ s.result.payslips.names :=
      Named.not_mem_names_iff.2 hpaid
    have hfailed : id ∈ s.result.errors.names
        ↔ 1 < occurrences requests id := by
      show id ∈ s.allErrors.names ↔ _
      rw [mem_allErrors_iff, hflight, Named.mem_names_iff, herrors,
        get?_duplicates]
      simp only [reduceCtorEq, false_or, Option.ite_none_right_eq_some,
        Option.some_inj, exists_and_left, exists_eq', and_true]
    have hskipped : id ∈ s.result.skipped.names
        ↔ occurrences requests id = 1 := by
      rw [hskip, ← mem_employees_queue, mem_employees_take_or_drop]
      exact (or_iff_right htake).symm
    rw [if_neg hunpaid]
    simp only [hfailed, hskipped, mem_employees_iff_occurs]
    split <;> split <;> split <;> omega

/-- The sizes of the headings add up to the distinct employees. -/
theorem total_of_headings {r : Result}
    (h : ∀ id, r.headings.count id
      = if id ∈ employees requests then 1 else 0) :
    r.total = (employees requests).dedup.length := by
  have hperm : r.headings.Perm (employees requests).dedup := by
    rw [List.perm_iff_count]
    intro id
    rw [h, List.count_dedup]
  rw [← hperm.length_eq, Result.headings, List.length_append,
    List.length_append, ← Named.size_eq_length_names,
    ← Named.size_eq_length_names, ← Named.size_eq_length_names]
  rfl

-- ============================================================== outcomes

/-- At the end whoever is in flight has lost the calculation. -/
theorem Accounts.outcome {s : State} {r : Request}
    (hs : Accounts calculator requests k s) (hdone : s.Done)
    (hr : r ∈ (queue requests).take k) :
    s.result.outcome? r.employeeId = some (isolate calculator r)
      ∨ ¬ s.Kept ∧ s.result.outcome? r.employeeId
          = some (.error (.calculation .noResult)) := by
  have hread : s.result.outcome? r.employeeId
      = ((s.payslips.get? r.employeeId).map .ok).or
        ((s.allErrors.get? r.employeeId).map .error) := rfl
  rw [hread, get?_allErrors]
  cases hflight : s.inFlight.get? r.employeeId with
  | some u =>
      refine .inr ⟨?_, ?_⟩
      · intro hkept
        have hmem := hkept r.employeeId hflight
        rw [State.uncollected, hdone.2.1, hdone.2.2] at hmem
        cases hmem
      · rw [(hs.unfiled hflight).1]
        rfl
  | none =>
      left
      rcases hs.of_collected hr hflight with
        ⟨p, hok, hpaid, -⟩ | ⟨e, herror, hpaid, hfailed⟩
      · rw [hpaid, hok]
        rfl
      · rw [hpaid, hfailed, herror]
        rfl

theorem eq_of_isolate_duplicate {r : Request} {id : String}
    (h : isolate calculator r = .error (.duplicateRequest id)) :
    calculator r = .error (.error (.duplicateRequest id)) := by
  unfold isolate at h
  split at h
  · cases h
  · rename_i e hcalculator
    cases h
    exact hcalculator
  · cases h

/-- The error of a second request comes from the batch, or else from a
calculation. -/
theorem Accounts.duplicate_only {s : State} {id id' : String}
    (hs : Accounts calculator requests k s)
    (h : s.result.errors.get? id = some (.duplicateRequest id')) :
    1 < occurrences requests id ∧ id' = id
      ∨ ∃ r ∈ (queue requests).take k, r.employeeId = id
        ∧ calculator r = .error (.error (.duplicateRequest id')) := by
  change s.allErrors.get? id = _ at h
  rw [get?_allErrors] at h
  split at h
  · cases h
  · rcases (hs.errors id _).1 h with hdup | ⟨-, r, hr, hid, hanswer⟩
    · rw [get?_duplicates] at hdup
      split at hdup
      · rename_i hmore
        cases hdup
        exact .inl ⟨hmore, rfl⟩
      · cases hdup
    · exact .inr ⟨r, hr, hid, eq_of_isolate_duplicate hanswer⟩

-- ================================================================ status

theorem Result.status_cancelled (r : Result) :
    r.status = .cancelled ↔ r.skipped.names ≠ [] := by
  rw [← Named.size_pos_iff]
  unfold Result.status
  split
  · rename_i hskipped
    exact iff_of_true rfl hskipped
  · rename_i hnone
    refine iff_of_false ?_ hnone
    split <;> nofun

theorem Result.status_partialFailure (r : Result) :
    r.status = .partialFailure
      ↔ r.skipped.names = [] ∧ r.errors.names ≠ [] := by
  rw [← Classical.not_not (a := r.skipped.names = []), ← ne_eq,
    ← Named.size_pos_iff, ← Named.size_pos_iff]
  unfold Result.status
  split
  · rename_i hskipped
    exact iff_of_false nofun fun hboth => hboth.1 hskipped
  · rename_i hnone
    split
    · rename_i hfailed
      exact iff_of_true rfl ⟨hnone, hfailed⟩
    · rename_i hpaid
      exact iff_of_false nofun fun hboth => hpaid hboth.2

-- =============================================================== results

/-- What the invariant says of a run that is done. -/
theorem Accounts.accounted {s : State} {lost : Prop}
    (hs : Accounts calculator requests k s) (hdone : s.Done)
    (hlost : ¬ s.Kept → lost) :
    Accounted calculator requests k lost s.result where
  le_length := hs.le_length
  headings := hs.headings_count hdone
  successCount := Named.size_eq_length_names _
  failureCount := Named.size_eq_length_names _
  total := total_of_headings (hs.headings_count hdone)
  duplicate := by
    intro id hmore
    have hqueue : id ∉ employees (queue requests) := by
      rw [mem_employees_queue]
      omega
    have htake : id ∉ employees ((queue requests).take k) :=
      fun h => hqueue (mem_employees_take_or_drop.2 (.inl h))
    have hdrop : id ∉ employees ((queue requests).drop k) :=
      fun h => hqueue (mem_employees_take_or_drop.2 (.inr h))
    obtain ⟨hpaid, hflight, herrors⟩ := hs.of_not_dispatched htake
    refine ⟨?_, Named.not_mem_names_iff.2 hpaid,
      fun h => hdrop ((hs.mem_skipped_iff hdone).1 h), hqueue⟩
    show s.allErrors.get? id = _
    rw [get?_allErrors, hflight, herrors, get?_duplicates, if_pos hmore]
    rfl
  duplicate_only := fun _ _ => hs.duplicate_only
  outcome := fun r hr =>
    (hs.outcome hdone hr).imp_right fun h => ⟨hlost h.1, h.2⟩
  skipped := fun _ => hs.mem_skipped_iff hdone
  cancelled := s.result.status_cancelled
  partialFailure := s.result.status_partialFailure

/-- One request after the other, a batch comes to a result and loses
nothing, whenever it is cancelled. -/
theorem accounted_run {poolSize : Nat} {cancelled : Bool} {s : State}
    (hsetUp : setUp requests poolSize cancelled = .ok s)
    (cancelAfter : Option String) : ∃ result k,
      run calculator requests poolSize cancelled cancelAfter = .ok result
        ∧ Accounted calculator requests k False result := by
  obtain ⟨-, rfl⟩ := setUp_eq_ok.1 hsetUp
  obtain ⟨es, hfollow, hdone, hpicks⟩ := drive_inOrder cancelAfter
    (pool_start requests poolSize cancelled) (by omega)
  have hs := accounts_follow
    (accounts_start calculator requests poolSize cancelled) hfollow
  have hkept := kept_follow (kept_start requests poolSize cancelled)
    (lose_not_mem hpicks) hfollow
  exact ⟨_, _, run_eq_ok.2 ⟨_, hsetUp, rfl⟩,
    hs.accounted hdone fun hnot => hnot hkept⟩

/-- A batch that was set up comes to a result. Every run of it, under
whatever schedule, is finite and never stuck, dispatches nothing once it
was cancelled, and where it ends everybody is accounted for. A
calculation is lost only where an event says so, and requests are left
over only where the run was cancelled. -/
theorem accounted_of_run (calculator : Calculator) {poolSize : Nat}
    {cancelled : Bool} {s₀ : State}
    (hsetUp : setUp requests poolSize cancelled = .ok s₀) :
    (∀ cancelAfter, ∃ result k,
      run calculator requests poolSize cancelled cancelAfter = .ok result
        ∧ Accounted calculator requests k False result)
    ∧ ∀ es s, follow calculator s₀ es = some s →
      es.length ≤ s₀.work
      ∧ (s.Done ∨ ∃ e s', e ≠ .cancel ∧ step calculator s e = some s')
      ∧ (∀ as bs, es = as ++ bs → cancelled = true ∨ .cancel ∈ as →
          .dispatch ∉ bs)
      ∧ (s.Done → Accounted calculator requests (es.count .dispatch)
          (∃ i, .lose i ∈ es) s.result
        ∧ (es.count .dispatch < (queue requests).length →
          cancelled = true ∨ .cancel ∈ es)) := by
  refine ⟨accounted_run hsetUp, ?_⟩
  obtain ⟨-, rfl⟩ := setUp_eq_ok.1 hsetUp
  intro es s h
  refine ⟨?_, done_or_step h, ?_, ?_⟩
  · exact Nat.le_of_add_right_le (length_le_work h)
  · intro as bs hes hcancel
    subst hes
    obtain ⟨t, has, hbs⟩ := follow_append h
    exact dispatch_not_mem ((cancelled_follow has).2 hcancel) hbs
  · intro hdone
    have hs := accounts_follow
      (accounts_start calculator requests poolSize cancelled) h
    rw [Nat.zero_add] at hs
    refine ⟨hs.accounted hdone fun hnot => ?_, fun hlt => ?_⟩
    · by_contra hkeeps
      rw [not_exists] at hkeeps
      exact hnot (kept_follow (kept_start requests poolSize cancelled)
        hkeeps h)
    · exact (cancelled_follow h).1 (hs.cancelled_of_lt hdone hlt)

/-- Five employees, one of them named twice. -/
def staff : List Request :=
  ["A", "B", "C", "B", "D", "E"].map fun id =>
    { employeeId := id
      period := .of 2024 5
      baseSalary := 250000
      regularHours := 160 }

/-- The calculation under the Senegalese rules, which crashes for one
employee. -/
def unsteady : Calculator := fun r =>
  if r.employeeId = "C" then .error (.crash .silent)
  else calculate r Senegal.book r.period.lastDay

/-- A run with a crash and a loss that is cancelled with one request to
go. -/
def roughRun : List Event :=
  [.dispatch, .dispatch, .dispatch, .cancel, .complete 1, .lose 1,
    .complete 0, .stop, .collect 0, .collect 0, .collect 0]

theorem accounted_of_run_unsteady : ∃ s₀ s,
    setUp staff 3 false = .ok s₀ ∧ follow unsteady s₀ roughRun = some s
      ∧ s.Done
      ∧ .dispatch ∉ roughRun.drop 4
      ∧ Accounted unsteady staff 3 (∃ i, .lose i ∈ roughRun) s.result
      ∧ s.result.payslips.names = ["A"]
      ∧ s.result.errors.names = ["B", "C", "D"]
      ∧ s.result.skipped.names = ["E"] := by
  have hsetUp : setUp staff 3 false = .ok (start staff 3 false) :=
    setUp_eq_ok.2 ⟨by decide, rfl⟩
  have hend : (follow unsteady (start staff 3 false) roughRun).map
      (fun s => decide (s.pending = [] ∧ s.running = []
        ∧ s.finished.length = 0 ∧ s.result.payslips.names = ["A"]
        ∧ s.result.errors.names = ["B", "C", "D"]
        ∧ s.result.skipped.names = ["E"])) = some true := by
    decide +kernel
  rw [Option.map_eq_some_iff] at hend
  obtain ⟨s, hfollow, hs⟩ := hend
  obtain ⟨hpending, hrunning, hfinished, hnames⟩ := of_decide_eq_true hs
  have hdone : s.Done :=
    ⟨hpending, hrunning, List.length_eq_zero_iff.1 hfinished⟩
  obtain ⟨-, hruns⟩ := accounted_of_run unsteady hsetUp
  obtain ⟨-, -, hstopped, haccounted⟩ := hruns _ _ hfollow
  have hrest := hstopped (roughRun.take 4) (roughRun.drop 4)
    (List.take_append_drop 4 roughRun).symm (.inr (by decide))
  exact ⟨_, s, hsetUp, hfollow, hdone, hrest, (haccounted hdone).1, hnames⟩

/-- A calculator that takes everybody for a second request. -/
def repetitive : Calculator := fun r =>
  .error (.error (.duplicateRequest r.employeeId))

/-- An employee with one request is refused for a second one, if the
calculator says so; and nobody is accounted for where the pool is
larger than any pool. -/
theorem refused_without_repetition :
    (∃ result, run repetitive (staff.take 1) 1 false none = .ok result
      ∧ occurrences (staff.take 1) "A" = 1
      ∧ result.errors.get? "A" = some (.duplicateRequest "A"))
    ∧ ¬∃ result, run repetitive (staff.take 1) 18446744073709551615 false
        none = .ok result := by
  constructor
  · have hrefused : (run repetitive (staff.take 1) 1 false
        none).toOption.any (fun result => decide
          (result.errors.get? "A" = some (.duplicateRequest "A"))) = true := by
      decide +kernel
    obtain ⟨result, hrun, herror⟩ := exists_ok_of_any hrefused
    exact ⟨result, hrun, by decide, of_decide_eq_true herror⟩
  · rintro ⟨result, hrun⟩
    exact absurd (le_maxPermits_of_run hrun) (by decide)

end Payroll.Batch
