/-
The pool of permits. A calculation takes a permit when it is dispatched
and gives it back when it ends, whichever way it ends: with a payslip,
with an error, by a crash, or lost. So at every moment permits and
running calculations make up the pool between them, no more run than
the pool allows, and a batch that has work left has something to do.

# The argument

`Pool` is kept by every event (`pool_step`), because the two events that
end a calculation look at nothing but its place among those that run:
the machine gives the permit back before anyone reads the outcome. All
else follows. A pool has a permit, so with none free somebody runs and
may end; and the schedule `inOrder`, which never cancels and never loses
a calculation, leads from any reachable state to the end, where all
permits are back.

That nobody who holds a permit has an outcome yet is not a matter of
counting. It is read off where each employee is (`Accounts`).

A pool of more than `maxPermits` is refused before there is a state to
speak of (`setUp`). So whatever is given back, there never are more
permits than a pool can have.
-/
import Payroll.Proofs.Batch.Results

namespace Payroll.Batch

variable {calculator : Calculator} {requests : List Request}

/-- Whether an event is the end of a calculation. -/
def Event.ends : Event → Bool
  | .complete _ => true
  | .lose _ => true
  | _ => false

/-- A state of a batch with a pool of `n` permits that is bounded and
cannot get stuck. -/
structure State.Flows (calculator : Calculator) (n : ℕ) (s : State) :
    Prop where
  pool : s.permits + s.running.length = n
  bounded : s.running.length ≤ n
  /-- Nobody who holds a permit has an outcome. -/
  holders : ∀ r ∈ s.running, r.employeeId ∉ reported s.finished
    ∧ s.payslips.get? r.employeeId = none
    ∧ s.errors.get? r.employeeId = none
  /-- Every calculation that runs may end, and gives its permit back
  then. -/
  returns : ∀ i < s.running.length, ∀ e ∈ [Event.complete i, .lose i],
    ∃ s', step calculator s e = some s' ∧ s'.permits = s.permits + 1
  free_or_running : s.pending ≠ [] → s.cancelled = false →
    0 < s.permits ∨ s.running ≠ []
  starts : s.pending ≠ [] → s.cancelled = false → 0 < s.permits →
    ∃ s', step calculator s .dispatch = some s'
  /-- A state that is not done needs no cancelling and no loss to move
  on. -/
  next : ¬ s.Done → ∃ e s', e ≠ .cancel ∧ (∀ i, e ≠ .lose i)
    ∧ step calculator s e = some s'
  /-- It can be brought to its end, where all permits are back. -/
  finishes : ∃ es s', follow calculator s es = some s' ∧ s'.Done
    ∧ s'.permits = n ∧ .cancel ∉ es ∧ ∀ i, .lose i ∉ es

-- =============================================================== permits

/-- A calculation that ends gives its permit back, whatever it came
to. -/
theorem exists_end {s : State} {i : ℕ} (hi : i < s.running.length)
    {e : Event} (he : e ∈ [Event.complete i, .lose i]) :
    ∃ s', step calculator s e = some s' ∧ s'.permits = s.permits + 1 := by
  rcases List.mem_pair.1 he with rfl | rfl
  · simp only [step, List.getElem?_eq_getElem hi]
    exact ⟨_, rfl, rfl⟩
  · simp only [step, hi, if_true]
    exact ⟨_, rfl, rfl⟩

theorem exists_dispatch {s : State} (hpending : s.pending ≠ [])
    (hlive : s.cancelled = false) (hpermit : 0 < s.permits) :
    ∃ s', step calculator s .dispatch = some s' := by
  obtain ⟨r, rest, hr⟩ := List.exists_cons_of_ne_nil hpending
  simp only [step, hr, hlive, hpermit]
  exact ⟨_, rfl⟩

/-- Only dispatching adds a calculation that runs, and only the end of
one takes it away. -/
theorem running_step {s s' : State} {e : Event}
    (h : step calculator s e = some s') :
    s'.running.length + (if e.ends then 1 else 0)
      = s.running.length + if e == .dispatch then 1 else 0 := by
  cases moves_of_step h with
  | dispatch => exact List.length_append
  | complete hrunning =>
      obtain ⟨hi, -⟩ := List.getElem?_eq_some_iff.1 hrunning
      show (s.running.eraseIdx _).length + 1 = s.running.length
      rw [List.length_eraseIdx_of_lt hi]
      omega
  | lose hrunning =>
      obtain ⟨hi, -⟩ := List.getElem?_eq_some_iff.1 hrunning
      show (s.running.eraseIdx _).length + 1 = s.running.length
      rw [List.length_eraseIdx_of_lt hi]
      omega
  | collect =>
      rw [record_eq]
      rfl
  | collectLost => rfl
  | cancel => rfl
  | stop => rfl

/-- Whatever was dispatched runs or has ended. -/
theorem running_follow {s s' : State} {es : List Event}
    (h : follow calculator s es = some s') :
    s'.running.length + es.countP Event.ends
      = s.running.length + es.count .dispatch := by
  induction es generalizing s with
  | nil =>
      cases h
      rfl
  | cons e es ih =>
      obtain ⟨t, hstep, hrest⟩ := follow_cons h
      have hfirst := running_step hstep
      have hrun := ih hrest
      rw [List.countP_cons, List.count_cons]
      omega

/-- A calculation that runs has no outcome: it is in flight, and nowhere
else. -/
theorem Accounts.no_outcome {k : ℕ} {s : State}
    (hs : Accounts calculator requests k s) {r : Request}
    (hr : r ∈ s.running) : r.employeeId ∉ reported s.finished
      ∧ s.payslips.get? r.employeeId = none
      ∧ s.errors.get? r.employeeId = none := by
  have hmem : r.employeeId ∈ employees s.running := mem_employees hr
  refine ⟨fun hfinished => ?_, hs.unfiled
    (hs.owed _ (List.mem_append_left _ hmem))⟩
  exact (List.nodup_append.1 hs.once).2.2 _ hmem _ hfinished rfl

-- ============================================================== progress

theorem State.Pool.flows {n k : ℕ} {s : State} (hpool : s.Pool n)
    (hn : 0 < n) (hs : Accounts calculator requests k s) :
    s.Flows calculator n where
  pool := hpool
  bounded := hpool.running_le
  holders := fun r hr => hs.no_outcome hr
  returns := fun i hi e he => exists_end hi he
  free_or_running _ _ := by
    rw [or_iff_not_imp_left]
    intro hnone hrunning
    rw [State.Pool, hrunning, List.length_nil] at hpool
    omega
  starts := exists_dispatch
  next := exists_next hpool hn
  finishes := by
    obtain ⟨es, hfollow, hdone, hcancel, hkeeps⟩ :=
      @drive_undisturbed calculator _ _ hpool hn
    have hend := follow_invariant pool_step hpool hfollow
    rw [State.Pool, hdone.2.1] at hend
    exact ⟨es, _, hfollow, hdone, hend, hcancel, hkeeps⟩

/-- Every state that a batch can come to once it is set up, whatever its
calculations do and whoever picks the events: the pool is bounded and
nothing is stuck. Of the permits taken on the way there, those are back
whose calculations ended. -/
theorem pool_flows {poolSize : ℕ} {cancelled : Bool} {s₀ s : State}
    (hsetUp : setUp requests poolSize cancelled = .ok s₀)
    (h : Reachable calculator s₀ s) :
    s.Flows calculator (max 1 poolSize)
      ∧ s.permits ≤ maxPermits
      ∧ ∀ es, follow calculator s₀ es = some s →
        s.running.length + es.countP Event.ends = es.count .dispatch
          ∧ s.permits + es.count .dispatch
            = max 1 poolSize + es.countP Event.ends := by
  obtain ⟨hsize, rfl⟩ := setUp_eq_ok.1 hsetUp
  obtain ⟨es, hes⟩ := reachable_iff_follow.1 h
  have hpool := follow_invariant pool_step
    (pool_start requests poolSize cancelled) hes
  have haccounts := accounts_follow
    (accounts_start calculator requests poolSize cancelled) hes
  refine ⟨hpool.flows (by omega) haccounts, ?_, fun es hes => ?_⟩
  · have hone : 1 ≤ maxPermits := by decide
    have hfree := Nat.le.intro hpool
    omega
  have hcount := running_follow hes
  rw [show (start requests poolSize cancelled).running = [] from rfl,
    List.length_nil, Nat.zero_add] at hcount
  unfold State.Pool at hpool
  exact ⟨hcount, by omega⟩

/-- Two permits, a crash and a loss: both permits come back, and the one
that is taken again is the only one out. -/
theorem pool_flows_unsteady : ∃ s₀ s,
    setUp staff 2 false = .ok s₀ ∧ Reachable unsteady s₀ s
      ∧ s.pending.length = 1 ∧ s.running.length = 1 ∧ s.permits = 1
      ∧ s.Flows unsteady 2 := by
  have hsetUp : setUp staff 2 false = .ok (start staff 2 false) :=
    setUp_eq_ok.2 ⟨by decide, rfl⟩
  have hend : (follow unsteady (start staff 2 false)
      [.dispatch, .dispatch, .complete 1, .dispatch, .lose 0]).map
        (fun s => decide (s.pending.length = 1 ∧ s.running.length = 1
          ∧ s.permits = 1)) = some true := by
    decide +kernel
  rw [Option.map_eq_some_iff] at hend
  obtain ⟨s, hfollow, hs⟩ := hend
  obtain ⟨hpending, hrunning, hpermits⟩ := of_decide_eq_true hs
  have hreachable := reachable_iff_follow.2 ⟨_, hfollow⟩
  exact ⟨_, s, hsetUp, hreachable, hpending, hrunning, hpermits,
    (pool_flows hsetUp hreachable).1⟩

end Payroll.Batch
