/-
What a batch reports for an employee depends on that employee alone.
`entry` is the report of a single calculation: the isolated outcome of
the one request, a refusal where there are several, nothing where there
is none. A batch that ran to its end without being cancelled files this
entry for everybody, whatever the schedule and the pool (`Files`), and
since an entry reads nothing but the requests of its own employee, no
order of the requests and no other employee's request, error or crash
can show in it (`entry_congr`).

# The argument

A run that is done and was not cancelled has dispatched its whole queue.
Nobody is left in flight but those whose calculation was lost, so by
`Accounts` each employee of the queue is out of flight with the answer
filed, and an employee outside the queue has what the batch began with.

The one thing that the size of the pool decides is whether the batch
runs at all: a pool larger than a semaphore can count is not set up.
-/
import Payroll.Proofs.Batch.Results

namespace Payroll.Batch

variable {calculator calculator' : Calculator}
  {requests requests' : List Request} {id : String}

-- =============================================================== entries

/-- The requests of an employee. -/
def requestsOf (requests : List Request) (id : String) : List Request :=
  requests.filter (·.employeeId == id)

/-- What is to be reported for an employee. -/
def entry (calculator : Calculator) (requests : List Request)
    (id : String) : Option Outcome :=
  match requestsOf requests id with
  | [] => none
  | [r] => some (isolate calculator r)
  | _ :: _ :: _ => some (.error (.duplicateRequest id))

theorem length_requestsOf (requests : List Request) (id : String) :
    (requestsOf requests id).length = occurrences requests id :=
  List.countP_eq_length_filter.symm

theorem mem_requestsOf {r : Request} :
    r ∈ requestsOf requests id ↔ r ∈ requests ∧ r.employeeId = id := by
  rw [requestsOf, List.mem_filter, beq_iff_eq]

theorem entry_eq_none (h : occurrences requests id = 0) :
    entry calculator requests id = none := by
  rw [← length_requestsOf, List.length_eq_zero_iff] at h
  rw [entry, h]

/-- An employee with one request has the outcome of that request. -/
theorem entry_of_once {r : Request} (hr : r ∈ requests)
    (h : occurrences requests r.employeeId = 1) :
    entry calculator requests r.employeeId
      = some (isolate calculator r) := by
  rw [← length_requestsOf, List.length_eq_one_iff] at h
  obtain ⟨r', h⟩ := h
  have hmem := mem_requestsOf.2 ⟨hr, rfl⟩
  rw [h, List.mem_singleton] at hmem
  rw [entry, h, hmem]

/-- An employee with more requests is refused. -/
theorem entry_of_repeated (h : 1 < occurrences requests id) :
    entry calculator requests id
      = some (.error (.duplicateRequest id)) := by
  rw [← length_requestsOf] at h
  unfold entry
  split
  · rename_i hnone
    simp [hnone] at h
  · rename_i r hone
    simp [hone] at h
  · rfl

/-- An entry reads the employee's own requests, in whatever order they
come, and what the calculator makes of them. -/
theorem entry_congr
    (hrequests : (requestsOf requests' id).Perm (requestsOf requests id))
    (hcalculator : ∀ r ∈ requests, r.employeeId = id →
      calculator' r = calculator r) :
    entry calculator' requests' id = entry calculator requests id := by
  have hlength : occurrences requests' id = occurrences requests id := by
    rw [← length_requestsOf, ← length_requestsOf, hrequests.length_eq]
  rcases Nat.lt_trichotomy 1 (occurrences requests id) with h | h | h
  · rw [entry_of_repeated h, entry_of_repeated (hlength ▸ h)]
  · obtain ⟨r, hr⟩ := List.length_eq_one_iff.1
      ((length_requestsOf requests id).trans h.symm)
    obtain ⟨hmem, hid⟩ := mem_requestsOf.1 (hr ▸ List.mem_singleton_self r)
    rw [hr, List.perm_singleton] at hrequests
    unfold entry
    rw [hrequests, hr]
    simp only [isolate, hcalculator r hmem hid]
  · have hnone : occurrences requests id = 0 := by omega
    rw [entry_eq_none hnone, entry_eq_none (hlength.trans hnone)]

-- ================================================================ filing

/-- A result reports an entry for an employee: the payslip in its
place, or the error in its place, or neither, and no skipping. -/
structure Result.Files (result : Result) (id : String)
    (o : Option Outcome) : Prop where
  payslip : ∀ p, result.payslips.get? id = some p ↔ o = some (.ok p)
  error : ∀ e, result.errors.get? id = some e ↔ o = some (.error e)
  skipped : id ∉ result.skipped.names

/-- A state that is done files every entry but those that were lost, if
it has dispatched the whole queue. -/
theorem Accounts.files {lost : List String} {s : State}
    (hs : Accounts calculator requests (queue requests).length s)
    (hdone : s.Done) (hkept : s.KeptBut lost) (hid : id ∉ lost) :
    s.result.Files id (entry calculator requests id) := by
  have hlanded : s.inFlight.get? id = none := by
    rw [Option.eq_none_iff_forall_ne_some]
    rintro ⟨⟩ hflying
    have hmem := (hkept id hflying).resolve_right hid
    rw [State.uncollected, hdone.2.1, hdone.2.2] at hmem
    cases hmem
  have herrors : s.result.errors.get? id = s.errors.get? id := by
    show s.allErrors.get? id = _
    rw [get?_allErrors, hlanded, if_neg (Option.some_ne_none ()).symm]
  have hskipped : id ∉ s.result.skipped.names := by
    show id ∉ s.skipped.names
    rw [hs.mem_skipped_iff hdone, List.drop_length]
    exact List.not_mem_nil
  by_cases honce : occurrences requests id = 1
  · obtain ⟨r, hr, rfl⟩ :=
      mem_employees_iff.1 (mem_employees_queue.2 honce)
    have hr' : r ∈ (queue requests).take (queue requests).length := by
      rwa [List.take_length]
    rw [entry_of_once (mem_queue.1 hr).1 honce]
    rcases hs.of_collected hr' hlanded with
      ⟨p, hanswer, hpaid, hfailed⟩ | ⟨e, hanswer, hpaid, hfailed⟩
    · refine ⟨fun q => ?_, fun e => ?_, hskipped⟩
      · rw [show s.result.payslips = s.payslips from rfl, hpaid, hanswer]
        simp only [Option.some_inj, Except.ok.injEq]
      · rw [herrors, hfailed, hanswer]
        simp only [reduceCtorEq, Option.some_inj]
    · refine ⟨fun p => ?_, fun e' => ?_, hskipped⟩
      · rw [show s.result.payslips = s.payslips from rfl, hpaid, hanswer]
        simp only [reduceCtorEq, Option.some_inj]
      · rw [herrors, hfailed, hanswer]
        simp only [Option.some_inj, Except.error.injEq]
  · have htake : id ∉ employees
        ((queue requests).take (queue requests).length) := by
      rw [List.take_length, mem_employees_queue]
      exact honce
    obtain ⟨hpaid, -, hfiled⟩ := hs.of_not_dispatched htake
    have hentry : entry calculator requests id
        = ((duplicates requests).get? id).map .error := by
      rw [get?_duplicates]
      split
      · rename_i hmore
        exact entry_of_repeated hmore
      · exact entry_eq_none (by omega)
    rw [hentry, ← hfiled]
    refine ⟨fun p => ?_, fun e => ?_, hskipped⟩
    · rw [show s.result.payslips = s.payslips from rfl, hpaid]
      simp
    · rw [herrors]
      simp

-- ================================================================== runs

/-- A run that was not cancelled files every entry but those it lost. -/
theorem files_of_run {poolSize : Nat} {s : State} {es : List Event}
    (h : follow calculator (start requests poolSize false) es = some s)
    (hcancel : .cancel ∉ es) (hdone : s.Done)
    (hid : id ∉ losses calculator (start requests poolSize false) es) :
    s.result.Files id (entry calculator requests id) := by
  have hs := accounts_follow
    (accounts_start calculator requests poolSize false) h
  have hkept := keptBut_follow
    (kept_iff.1 (kept_start requests poolSize false)) h
  rw [List.append_nil] at hkept
  have hall : 0 + es.count .dispatch = (queue requests).length := by
    refine Nat.le_antisymm hs.le_length (Nat.le_of_not_lt fun hlt => ?_)
    rcases (cancelled_follow h).1 (hs.cancelled_of_lt hdone hlt) with h | h
    · cases h
    · exact hcancel h
  rw [hall] at hs
  exact hs.files hdone hkept hid

/-- Where its pool can be set up, a batch that is left to itself comes
to a result, and loses nobody. -/
theorem run_files {poolSize : Nat} (hpool : poolSize ≤ maxPermits) :
    ∃ result, run calculator requests poolSize false none = .ok result
      ∧ ∀ id, result.Files id (entry calculator requests id) := by
  obtain ⟨es, hfollow, hdone, hcancel, hkeeps⟩ := @drive_undisturbed
    calculator _ _ (pool_start requests poolSize false) (by omega)
  refine ⟨_, run_eq_ok.2 ⟨_, setUp_eq_ok.2 ⟨hpool, rfl⟩, rfl⟩,
    fun id => files_of_run hfollow hcancel hdone ?_⟩
  rw [losses_eq_nil hkeeps]
  exact List.not_mem_nil

/-- With a pool that can be set up, every run that is not cancelled is
finite and never stuck, and ends with the entry of every employee whose
calculation it did not lose; running in order loses nobody's. An entry
is that of the single request, or a refusal, and no order of the
requests, no pool and nothing about other employees changes it. -/
theorem entries_by_employee (calculator : Calculator)
    (requests : List Request) (poolSize : Nat)
    (hpool : poolSize ≤ maxPermits) :
    (∃ result, run calculator requests poolSize false none = .ok result
        ∧ ∀ id, result.Files id (entry calculator requests id))
      ∧ (∀ es s,
        follow calculator (start requests poolSize false) es = some s →
        .cancel ∉ es →
          es.length ≤ (start requests poolSize false).work
          ∧ (s.Done ∨ ∃ e s', e ≠ .cancel ∧ step calculator s e = some s')
          ∧ (s.Done → ∀ id,
            id ∉ losses calculator (start requests poolSize false) es →
              s.result.Files id (entry calculator requests id)))
      ∧ (∀ r ∈ requests, occurrences requests r.employeeId = 1 →
        entry calculator requests r.employeeId
          = some (isolate calculator r))
      ∧ (∀ id, 1 < occurrences requests id →
        entry calculator requests id
          = some (.error (.duplicateRequest id)))
      ∧ ∀ calculator' requests' id,
        (requestsOf requests' id).Perm (requestsOf requests id) →
        (∀ r ∈ requests, r.employeeId = id →
          calculator' r = calculator r) →
        entry calculator' requests' id = entry calculator requests id := by
  refine ⟨run_files hpool, fun es s h hcancel => ⟨?_, done_or_step h, ?_⟩,
    fun r hr => entry_of_once hr, fun id => entry_of_repeated,
    fun calculator' requests' id => entry_congr⟩
  · exact Nat.le_of_add_right_le (length_le_work h)
  · exact fun hdone id => files_of_run h hcancel hdone

/-- Three calculations at a time: one employee is paid, one is refused
for a second request, one has a crash for an error; and the one who is
paid would be paid the same with the requests turned round and every
other calculation crashing. -/
theorem entries_by_employee_unsteady :
    3 ≤ maxPermits ∧ ∃ result p,
      run unsteady staff 3 false none = .ok result
      ∧ entry unsteady staff "A" = some (.ok p)
      ∧ result.payslips.get? "A" = some p
      ∧ result.errors.get? "B" = some (.duplicateRequest "B")
      ∧ result.errors.get? "C" = some (.calculation (.crashed .silent))
      ∧ entry (fun r => if r.employeeId = "A" then unsteady r
          else .error (.crash .silent)) staff.reverse "A"
        = entry unsteady staff "A" := by
  obtain ⟨⟨result, hrun, hfiles⟩, -, hone, hmore, hsame⟩ :=
    entries_by_employee unsteady staff 3 (by decide)
  have hpaid : ((entry unsteady staff "A").bind
      fun o => o.toOption).isSome = true := by
    decide +kernel
  obtain ⟨p, hp⟩ : ∃ p, entry unsteady staff "A" = some (.ok p) := by
    obtain ⟨p, hp⟩ := Option.isSome_iff_exists.1 hpaid
    obtain ⟨o, ho, hok⟩ := Option.bind_eq_some_iff.1 hp
    cases o with
    | error e => cases hok
    | ok q => exact ⟨q, ho⟩
  have hcrash : entry unsteady staff "C"
      = some (.error (.calculation (.crashed .silent))) := rfl
  refine ⟨by decide, result, p, hrun, hp, ((hfiles "A").payslip p).2 hp,
    ((hfiles "B").error _).2 (hmore "B" (by decide)),
    ((hfiles "C").error _).2 hcrash, hsame _ _ "A" ?_ fun r _ hr => ?_⟩
  · exact (List.reverse_perm staff).filter _
  · rw [if_pos hr]

/-- A pool without a bound, such as the largest count of a machine word,
is no pool at all: the batch stops before it begins and nobody has an
entry filed. -/
theorem no_entries_of_unbounded_pool :
    ¬∃ result, run unsteady staff 18446744073709551615 false none
        = .ok result
      ∧ ∀ id, result.Files id (entry unsteady staff id) := by
  rintro ⟨result, hrun, -⟩
  exact absurd (le_maxPermits_of_run hrun) (by decide)

end Payroll.Batch
