/-
Runs of a batch as lists of events. `follow` takes a state through a
list of events and fails where the machine does, so what is shown of
every list that it follows holds under every schedule.

# What an event does

`Moves` says for each event what it needs and what it leaves behind;
`moves_of_step` reads it off `step` once, and every invariant here and
later is a case analysis of `Moves`.

# Three facts about all runs

- A run is finite: each event takes one off `State.work` at least, so
  a run is no longer than the work it started with
  (`length_le_work`).
- A run is never stuck: with a permit for every calculation that is not
  running, the schedule `inOrder` has an enabled event in every state
  that is not `Done` (`step_inOrder`).
- Nothing is dispatched once the run is cancelled
  (`dispatch_not_mem`).
-/
import Payroll.Batch.Run

namespace Payroll.Batch

variable {calculator : Calculator}

/-- Takes a state through a list of events. -/
def follow (calculator : Calculator) (s : State) : List Event → Option State
  | [] => some s
  | e :: es => (step calculator s e).bind (follow calculator · es)

/-- Nothing waits, nothing runs and everything that ended is
collected. -/
def State.Done (s : State) : Prop :=
  s.pending = [] ∧ s.running = [] ∧ s.finished = []

-- ================================================================ events

/-- Takes the `i`-th outcome out, and its employee out of flight. -/
def State.takeOut (s : State) (i : Nat) (id : String) : State :=
  { s with
    finished := s.finished.eraseIdx i
    inFlight := s.inFlight.erase id }

/-- Filing an outcome changes the two reports and nothing else. -/
theorem record_eq (s : State) (id : String) (o : Outcome) :
    s.record id o = { s with
      payslips := (s.record id o).payslips
      errors := (s.record id o).errors } := by
  cases o <;> rfl

/-- What each event needs of a state and makes of it. -/
inductive Moves (calculator : Calculator) (s : State) :
    Event → State → Prop
  | dispatch {r : Request} {rest : List Request}
      (hpending : s.pending = r :: rest) (hlive : s.cancelled = false)
      (hpermit : 0 < s.permits) :
      Moves calculator s .dispatch { s with
        pending := rest
        running := s.running ++ [r]
        inFlight := s.inFlight.insert r.employeeId ()
        permits := s.permits - 1 }
  | complete {i : Nat} {r : Request} (hrunning : s.running[i]? = some r) :
      Moves calculator s (.complete i) { s with
        running := s.running.eraseIdx i
        finished :=
          s.finished ++ [some (r.employeeId, isolate calculator r)]
        permits := s.permits + 1 }
  | lose {i : Nat} {r : Request} (hrunning : s.running[i]? = some r) :
      Moves calculator s (.lose i) { s with
        running := s.running.eraseIdx i
        finished := s.finished ++ [none]
        permits := s.permits + 1 }
  | collect {i : Nat} {id : String} {o : Outcome}
      (hpending : s.pending = [])
      (hfinished : s.finished[i]? = some (some (id, o))) :
      Moves calculator s (.collect i) ((s.takeOut i id).record id o)
  | collectLost {i : Nat} (hpending : s.pending = [])
      (hfinished : s.finished[i]? = some none) :
      Moves calculator s (.collect i)
        { s with finished := s.finished.eraseIdx i }
  | cancel (hlive : s.cancelled = false) :
      Moves calculator s .cancel { s with cancelled := true }
  | stop (hpending : s.pending ≠ []) (hcancelled : s.cancelled = true) :
      Moves calculator s .stop { s with
        pending := []
        skipped := s.pending.foldl
          (fun m r => m.insert r.employeeId ()) s.skipped }

theorem moves_of_step {s s' : State} {e : Event}
    (h : step calculator s e = some s') : Moves calculator s e s' := by
  cases e with
  | dispatch =>
      simp only [step] at h
      split at h
      · rename_i r rest hpending
        split at h
        · rename_i hfree
          obtain ⟨hlive, hpermit⟩ := hfree
          cases h
          exact .dispatch hpending hlive hpermit
        · cases h
      · cases h
  | complete i =>
      simp only [step] at h
      split at h
      · rename_i r hrunning
        cases h
        exact .complete hrunning
      · cases h
  | lose i =>
      simp only [step] at h
      split at h
      · rename_i hi
        cases h
        exact .lose (List.getElem?_eq_getElem hi)
      · cases h
  | collect i =>
      simp only [step] at h
      split at h
      · rename_i id o hpending hfinished
        cases h
        exact .collect hpending hfinished
      · rename_i hpending hfinished
        cases h
        exact .collectLost hpending hfinished
      · cases h
  | cancel =>
      simp only [step] at h
      split at h
      · cases h
      · rename_i hlive
        cases h
        exact .cancel (Bool.of_not_eq_true hlive)
  | stop =>
      simp only [step] at h
      split at h
      · rename_i r rest hpending
        split at h
        · rename_i hcancelled
          cases h
          rw [← hpending]
          exact .stop (by rw [hpending]; exact List.cons_ne_nil r rest)
            hcancelled
        · cases h
      · cases h

-- ================================================================== runs

theorem follow_cons {s s' : State} {e : Event} {es : List Event}
    (h : follow calculator s (e :: es) = some s') :
    ∃ t, step calculator s e = some t ∧ follow calculator t es = some s' :=
  Option.bind_eq_some_iff.1 h

/-- A run may be cut anywhere. -/
theorem follow_append {s s' : State} {as bs : List Event}
    (h : follow calculator s (as ++ bs) = some s') :
    ∃ t, follow calculator s as = some t
      ∧ follow calculator t bs = some s' := by
  induction as generalizing s with
  | nil => exact ⟨s, rfl, h⟩
  | cons e as ih =>
      obtain ⟨t, hstep, hrest⟩ := follow_cons h
      obtain ⟨u, has, hbs⟩ := ih hrest
      refine ⟨u, ?_, hbs⟩
      rw [follow, hstep]
      exact has

/-- What every event keeps, a run keeps. -/
theorem follow_invariant {P : State → Prop}
    (hkeep : ∀ {s s' e}, P s → step calculator s e = some s' → P s')
    {s s' : State} {es : List Event} (hs : P s)
    (h : follow calculator s es = some s') : P s' := by
  induction es generalizing s with
  | nil =>
      cases h
      exact hs
  | cons e es ih =>
      obtain ⟨t, hstep, hrest⟩ := follow_cons h
      exact ih (hkeep hs hstep) hrest

/-- Runs may be put end to end. -/
theorem follow_trans {s t u : State} {as bs : List Event}
    (has : follow calculator s as = some t)
    (hbs : follow calculator t bs = some u) :
    follow calculator s (as ++ bs) = some u := by
  induction as generalizing s with
  | nil =>
      cases has
      exact hbs
  | cons e as ih =>
      obtain ⟨t', hstep, hrest⟩ := follow_cons has
      rw [List.cons_append, follow, hstep]
      exact ih hrest

/-- The reachable states are those that some run leads to. -/
theorem reachable_iff_follow {s₀ s : State} :
    Reachable calculator s₀ s ↔ ∃ es, follow calculator s₀ es = some s := by
  constructor
  · intro h
    induction h with
    | start => exact ⟨[], rfl⟩
    | @step s s' e _ hstep ih =>
        obtain ⟨es, hes⟩ := ih
        refine ⟨es ++ [e], follow_trans hes ?_⟩
        rw [follow, hstep]
        rfl
  · rintro ⟨es, h⟩
    exact follow_invariant (fun hs hstep => hs.step hstep) .start h

/-- A run is no longer than the work that it does. -/
theorem length_le_work {s s' : State} {es : List Event}
    (h : follow calculator s es = some s') :
    es.length + s'.work ≤ s.work := by
  induction es generalizing s with
  | nil =>
      cases h
      exact Nat.le_of_eq (Nat.zero_add _)
  | cons e es ih =>
      obtain ⟨t, hstep, hrest⟩ := follow_cons h
      have hlt := work_lt_of_step hstep
      have hle := ih hrest
      rw [List.length_cons]
      omega

-- ============================================================ cancelling

/-- Only cancelling makes a batch cancelled, and nothing undoes it. -/
theorem cancelled_step {s s' : State} {e : Event}
    (h : step calculator s e = some s') :
    s'.cancelled = true ↔ s.cancelled = true ∨ e = .cancel := by
  cases moves_of_step h with
  | dispatch => exact (or_iff_left nofun).symm
  | complete => exact (or_iff_left nofun).symm
  | lose => exact (or_iff_left nofun).symm
  | collect =>
      rw [record_eq]
      exact (or_iff_left nofun).symm
  | collectLost => exact (or_iff_left nofun).symm
  | cancel => exact iff_of_true rfl (.inr rfl)
  | stop => exact (or_iff_left nofun).symm

/-- A run ends up cancelled if it was cancelled before it began, or on
the way. -/
theorem cancelled_follow {s s' : State} {es : List Event}
    (h : follow calculator s es = some s') :
    s'.cancelled = true ↔ s.cancelled = true ∨ .cancel ∈ es := by
  induction es generalizing s with
  | nil =>
      cases h
      exact (or_iff_left List.not_mem_nil).symm
  | cons e es ih =>
      obtain ⟨t, hstep, hrest⟩ := follow_cons h
      rw [ih hrest, cancelled_step hstep, List.mem_cons, or_assoc,
        eq_comm (a := e)]

theorem dispatch_not_mem {s s' : State} {es : List Event}
    (hs : s.cancelled = true) (h : follow calculator s es = some s') :
    .dispatch ∉ es := by
  induction es generalizing s with
  | nil => exact List.not_mem_nil
  | cons e es ih =>
      obtain ⟨t, hstep, hrest⟩ := follow_cons h
      have ht : t.cancelled = true := (cancelled_step hstep).2 (.inl hs)
      rw [List.mem_cons, not_or]
      refine ⟨?_, ih ht hrest⟩
      rintro rfl
      cases moves_of_step hstep with
      | dispatch _ hlive =>
          rw [hs] at hlive
          cases hlive

-- =============================================================== permits

/-- Every calculation that runs holds one of `n` permits. -/
def State.Pool (n : Nat) (s : State) : Prop :=
  s.permits + s.running.length = n

theorem pool_step {n : Nat} {s s' : State} {e : Event} (hs : s.Pool n)
    (h : step calculator s e = some s') : s'.Pool n := by
  unfold State.Pool at *
  cases moves_of_step h with
  | dispatch _ _ hpermit =>
      simp only [List.length_append, List.length_singleton]
      omega
  | complete hrunning =>
      obtain ⟨hi, -⟩ := List.getElem?_eq_some_iff.1 hrunning
      simp only [List.length_eraseIdx_of_lt hi]
      omega
  | lose hrunning =>
      obtain ⟨hi, -⟩ := List.getElem?_eq_some_iff.1 hrunning
      simp only [List.length_eraseIdx_of_lt hi]
      omega
  | collect =>
      rw [record_eq]
      exact hs
  | collectLost => exact hs
  | cancel => exact hs
  | stop => exact hs

theorem pool_start (requests : List Request) (poolSize : Nat)
    (cancelled : Bool) :
    (start requests poolSize cancelled).Pool (max 1 poolSize) := rfl

/-- No more calculations run at a time than the pool has permits. -/
theorem State.Pool.running_le {n : Nat} {s : State} (hs : s.Pool n) :
    s.running.length ≤ n := by
  unfold State.Pool at hs
  omega

-- ============================================================== progress

/-- `inOrder` stops only where nothing is left to do. -/
theorem done_of_inOrder {cancelAfter : Option String} {s : State}
    (h : inOrder cancelAfter s = none) : s.Done := by
  simp only [inOrder, List.isEmpty_iff] at h
  split at h
  · cases h
  · split at h
    · cases h
    · rename_i hrunning
      split at h
      · cases h
      · rename_i hpending
        split at h
        · cases h
        · rename_i hfinished
          rw [Classical.not_not] at hpending hrunning hfinished
          exact ⟨hpending, hrunning, hfinished⟩

/-- What `inOrder` picks, the machine does. -/
theorem step_inOrder {cancelAfter : Option String} {n : Nat} {s : State}
    {e : Event} (hpool : s.Pool n) (hn : 0 < n)
    (h : inOrder cancelAfter s = some e) :
    ∃ s', step calculator s e = some s' := by
  simp only [inOrder, List.isEmpty_iff] at h
  split at h
  · rename_i hcancel
    cases h
    exact ⟨_, by rw [step, if_neg (by rw [hcancel.1]; decide)]⟩
  · split at h
    · rename_i hrunning
      cases h
      obtain ⟨r, rest, hr⟩ := List.exists_cons_of_ne_nil hrunning
      simp only [step, hr, List.getElem?_cons_zero]
      exact ⟨_, rfl⟩
    · rename_i hrunning
      rw [Classical.not_not] at hrunning
      -- with nothing running, every permit is free
      have hpermit : 0 < s.permits := by
        rw [State.Pool, hrunning, List.length_nil] at hpool
        omega
      split at h
      · rename_i hpending
        obtain ⟨r, rest, hr⟩ := List.exists_cons_of_ne_nil hpending
        cases hc : s.cancelled with
        | true =>
            rw [hc] at h
            cases h
            simp only [step, hr, hc]
            exact ⟨_, rfl⟩
        | false =>
            rw [hc] at h
            cases h
            simp only [step, hr, hc, hpermit]
            exact ⟨_, rfl⟩
      · rename_i hpending
        rw [Classical.not_not] at hpending
        split at h
        · rename_i hfinished
          cases h
          obtain ⟨o, rest, ho⟩ := List.exists_cons_of_ne_nil hfinished
          simp only [step, hpending, ho, List.getElem?_cons_zero]
          cases o <;> exact ⟨_, rfl⟩
        · cases h

/-- `inOrder` loses no calculation. -/
theorem inOrder_ne_lose (cancelAfter : Option String) (s : State)
    (i : Nat) : inOrder cancelAfter s ≠ some (.lose i) := by
  simp only [inOrder]
  split
  · nofun
  · split
    · nofun
    · split
      · split <;> nofun
      · split <;> nofun

/-- What `inOrder` picks is never a loss. -/
theorem lose_not_mem {cancelAfter : Option String} {es : List Event}
    (hpicks : ∀ e ∈ es, ∃ s, inOrder cancelAfter s = some e) (i : Nat) :
    .lose i ∉ es := by
  intro hmem
  obtain ⟨s, hs⟩ := hpicks _ hmem
  exact inOrder_ne_lose cancelAfter s i hs

/-- Left to itself, `inOrder` cancels nothing. -/
theorem inOrder_ne_cancel (s : State) : inOrder none s ≠ some .cancel := by
  simp only [inOrder]
  split
  · rename_i h
    obtain ⟨-, hsome, hnone⟩ := h
    rw [hnone] at hsome
    cases hsome
  · split
    · nofun
    · split
      · split <;> nofun
      · split <;> nofun

/-- A state that is not done has an event that moves it on, and needs
neither cancelling nor a loss for that. -/
theorem exists_next {n : Nat} {s : State} (hpool : s.Pool n) (hn : 0 < n)
    (hnot : ¬ s.Done) : ∃ e s', e ≠ .cancel ∧ (∀ i, e ≠ .lose i)
      ∧ step calculator s e = some s' := by
  cases hpick : inOrder none s with
  | none => exact absurd (done_of_inOrder hpick) hnot
  | some e =>
      obtain ⟨s', hstep⟩ : ∃ s', step calculator s e = some s' :=
        step_inOrder hpool hn hpick
      refine ⟨e, s', ?_, ?_, hstep⟩
      · rintro rfl
        exact inOrder_ne_cancel s hpick
      · rintro i rfl
        exact inOrder_ne_lose none s i hpick

theorem done_or_step {requests : List Request} {poolSize : Nat}
    {cancelled : Bool} {s : State} {es : List Event}
    (h : follow calculator (start requests poolSize cancelled) es
      = some s) :
    s.Done ∨ ∃ e s', e ≠ .cancel ∧ step calculator s e = some s' := by
  have hpool := follow_invariant pool_step
    (pool_start requests poolSize cancelled) h
  by_cases hdone : s.Done
  · exact .inl hdone
  · have hnext := @exists_next calculator _ _ hpool (by omega) hdone
    obtain ⟨e, s', hcancel, -, hstep⟩ := hnext
    exact .inr ⟨e, s', hcancel, hstep⟩

/-- A state driven by `inOrder` runs to its end, by events that
`inOrder` picked. -/
theorem drive_inOrder (cancelAfter : Option String) {n : Nat} {s : State}
    (hpool : s.Pool n) (hn : 0 < n) :
    ∃ es, follow calculator s es
        = some (drive calculator (inOrder cancelAfter) s)
      ∧ (drive calculator (inOrder cancelAfter) s).Done
      ∧ ∀ e ∈ es, ∃ t, inOrder cancelAfter t = some e := by
  fun_induction drive calculator (inOrder cancelAfter) s with
  | case1 s hpick =>
      exact ⟨[], rfl, done_of_inOrder hpick, List.forall_mem_nil _⟩
  | case2 s e hpick hstuck =>
      obtain ⟨s', hstep⟩ := step_inOrder hpool hn hpick
      rw [hstuck] at hstep
      cases hstep
  | case3 s e hpick s' hstep ih =>
      obtain ⟨es, hfollow, hdone, hpicks⟩ := ih (pool_step hpool hstep)
      refine ⟨e :: es, ?_, hdone, fun e' hmem => ?_⟩
      · rw [follow, hstep]
        exact hfollow
      · rcases List.mem_cons.1 hmem with rfl | hmem
        · exact ⟨s, hpick⟩
        · exact hpicks e' hmem

/-- Left to itself, a state is driven to its end without cancelling and
without a loss. -/
theorem drive_undisturbed {n : Nat} {s : State} (hpool : s.Pool n)
    (hn : 0 < n) : ∃ es,
      follow calculator s es = some (drive calculator (inOrder none) s)
      ∧ (drive calculator (inOrder none) s).Done
      ∧ .cancel ∉ es ∧ ∀ i, .lose i ∉ es := by
  obtain ⟨es, hfollow, hdone, hpicks⟩ :=
    @drive_inOrder calculator none _ _ hpool hn
  refine ⟨es, hfollow, hdone, fun hmem => ?_, lose_not_mem hpicks⟩
  obtain ⟨t, ht⟩ := hpicks _ hmem
  exact inOrder_ne_cancel t ht

end Payroll.Batch
