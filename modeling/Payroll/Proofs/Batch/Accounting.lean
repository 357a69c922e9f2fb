/-
Where every request of a batch is while the batch runs. A run that has
dispatched `k` requests has dispatched the first `k` of the queue, and
`Accounts` says what became of them and of the rest:

- the rest still waits, in order and with nobody skipped, or all of it
  was skipped at once and the run is cancelled;
- of the first `k`, each is in flight or is filed with the answer that
  its calculation gave, and nobody else is filed;
- a calculation that runs, or ended and is not collected, belongs to
  somebody in flight, and to nobody twice.

Whoever is in flight without such a calculation has lost it. The
invariant leaves room for them, since only the end of the run tells
that they will not be filed. The events of a run name them (`losses`),
and `KeptBut` says that nobody else is in flight without a calculation;
`Kept` is what holds while nothing is lost.

# The argument

Filing is read off `inFlight`: an employee of the first `k` is filed
exactly when no longer in flight. So completing and losing a
calculation file nothing, dispatching files nothing because the new
employee is in flight, and collecting files one employee, whose place
in the queue is not shared (`answers_unique`).
-/
import Payroll.Proofs.Batch.Queue
import Payroll.Proofs.Batch.Runs

namespace Payroll.Batch

variable {calculator : Calculator} {requests : List Request} {k : Nat}

-- =============================================================== answers

/-- The outcome of an employee who is among some requests. -/
def Answers (calculator : Calculator) (l : List Request) (id : String)
    (o : Outcome) : Prop :=
  ∃ r ∈ l, r.employeeId = id ∧ isolate calculator r = o

theorem Answers.mem {l : List Request} {id : String} {o : Outcome}
    (h : Answers calculator l id o) : id ∈ employees l := by
  obtain ⟨r, hr, hid, -⟩ := h
  exact mem_employees_iff.2 ⟨r, hr, hid⟩

/-- An employee of the queue has one answer. -/
theorem answers_unique {id : String} {o o' : Outcome}
    (h : Answers calculator ((queue requests).take k) id o) :
    Answers calculator ((queue requests).take k) id o' ↔ o' = o := by
  obtain ⟨r, hr, rfl, rfl⟩ := h
  constructor
  · rintro ⟨r', hr', hid, rfl⟩
    rw [eq_of_employeeId_eq (List.mem_of_mem_take hr')
      (List.mem_of_mem_take hr) hid]
  · rintro rfl
    exact ⟨r, hr, rfl, rfl⟩

theorem answers_append {l : List Request} {r : Request} {id : String}
    {o : Outcome} :
    Answers calculator (l ++ [r]) id o
      ↔ Answers calculator l id o
        ∨ r.employeeId = id ∧ isolate calculator r = o := by
  simp only [Answers, List.mem_append, List.mem_singleton, or_and_right,
    exists_or, exists_eq_left]

/-- The answer of an employee who is out of flight. -/
def Collected (calculator : Calculator) (l : List Request)
    (inFlight : Named Unit) (id : String) (o : Outcome) : Prop :=
  inFlight.get? id = none ∧ Answers calculator l id o

-- ============================================================= invariant

/-- The employees of calculations that ended and left an outcome. -/
def reported (l : List (Option (String × Outcome))) : List String :=
  l.filterMap (·.map (·.1))

theorem reported_append (l l' : List (Option (String × Outcome))) :
    reported (l ++ l') = reported l ++ reported l' :=
  List.filterMap_append

/-- The employees whose calculations run, or ended and are not
collected. -/
def State.uncollected (s : State) : List String :=
  employees s.running ++ reported s.finished

structure Accounts (calculator : Calculator) (requests : List Request)
    (k : Nat) (s : State) : Prop where
  le_length : k ≤ (queue requests).length
  /-- Behind the first `k`, all wait, or all are skipped because the
  run was cancelled. -/
  waiting :
    s.pending = (queue requests).drop k ∧ s.skipped = .empty
      ∨ s.pending = [] ∧ s.cancelled = true
        ∧ ∀ id, s.skipped.get? id = some ()
          ↔ id ∈ employees ((queue requests).drop k)
  running : ∀ r ∈ s.running, r ∈ (queue requests).take k
  finished : ∀ id o, some (id, o) ∈ s.finished →
    Answers calculator ((queue requests).take k) id o
  /-- A calculation is not in two places. -/
  once : s.uncollected.Nodup
  owed : ∀ id ∈ s.uncollected, s.inFlight.get? id = some ()
  inFlight : ∀ id, s.inFlight.get? id = some () →
    id ∈ employees ((queue requests).take k)
  payslips : ∀ id p, s.payslips.get? id = some p
    ↔ Collected calculator ((queue requests).take k) s.inFlight id (.ok p)
  errors : ∀ id e, s.errors.get? id = some e
    ↔ (duplicates requests).get? id = some e
      ∨ Collected calculator ((queue requests).take k) s.inFlight id
          (.error e)

theorem accounts_start (calculator : Calculator) (requests : List Request)
    (poolSize : Nat) (cancelled : Bool) :
    Accounts calculator requests 0
      (start requests poolSize cancelled) where
  le_length := Nat.zero_le _
  waiting := .inl ⟨rfl, rfl⟩
  running := fun _ hr => absurd hr List.not_mem_nil
  finished := fun _ _ ho => absurd ho List.not_mem_nil
  once := List.nodup_nil
  owed := fun _ hid => absurd hid List.not_mem_nil
  inFlight := by
    intro id h
    cases (Named.get?_empty id).symm.trans h
  payslips := by
    intro id p
    constructor
    · intro h
      cases (Named.get?_empty id).symm.trans h
    · rintro ⟨-, r, hr, -⟩
      cases hr
  errors := by
    intro id e
    constructor
    · exact .inl
    · rintro (h | ⟨-, r, hr, -⟩)
      · exact h
      · cases hr

-- ================================================================ events

theorem uncollected_dispatch (s : State) (r : Request) (rest : List Request) :
    ({ s with
        pending := rest
        running := s.running ++ [r]
        inFlight := s.inFlight.insert r.employeeId ()
        permits := s.permits - 1 } : State).uncollected.Perm
      (r.employeeId :: s.uncollected) := by
  simp only [State.uncollected, employees, List.map_append, List.map_cons,
    List.map_nil, List.append_assoc, List.singleton_append]
  exact List.perm_middle

theorem perm_cons_eraseIdx {α : Type} {l : List α} {i : Nat} {a : α}
    (h : l[i]? = some a) : l.Perm (a :: l.eraseIdx i) := by
  obtain ⟨hi, rfl⟩ := List.getElem?_eq_some_iff.1 h
  exact (List.getElem_cons_eraseIdx_perm hi).symm

/-- A calculation that leaves the pool leaves the others. -/
theorem uncollected_running {s : State} {i : Nat} {r : Request}
    (h : s.running[i]? = some r) :
    s.uncollected.Perm (r.employeeId ::
      (employees (s.running.eraseIdx i) ++ reported s.finished)) :=
  ((perm_cons_eraseIdx h).map _).append_right _

/-- A calculation that ends is not collected yet. -/
theorem uncollected_complete {s : State} {i : Nat} {r : Request}
    (h : s.running[i]? = some r) (o : Outcome) :
    s.uncollected.Perm (employees (s.running.eraseIdx i)
      ++ reported (s.finished ++ [some (r.employeeId, o)])) := by
  refine (uncollected_running h).trans ?_
  rw [reported_append, ← List.append_assoc]
  exact (List.perm_append_singleton _ _).symm

/-- An outcome that is collected leaves the others. -/
theorem uncollected_finished {s : State} {i : Nat}
    {o : Option (String × Outcome)} (h : s.finished[i]? = some o) :
    s.uncollected.Perm ((o.map (·.1)).toList ++
      (employees s.running ++ reported (s.finished.eraseIdx i))) := by
  have hperm := (perm_cons_eraseIdx h).filterMap (·.map (·.1))
  refine (hperm.append_left (employees s.running)).trans ?_
  cases o with
  | none => exact .refl _
  | some o => exact List.perm_middle

/-- The request that waits first is the `k`-th of the queue, and its
employee is not among those before. -/
theorem Accounts.next {s : State} {r : Request} {rest : List Request}
    (hs : Accounts calculator requests k s)
    (hpending : s.pending = r :: rest) :
    (queue requests).take (k + 1) = (queue requests).take k ++ [r]
      ∧ rest = (queue requests).drop (k + 1)
      ∧ k + 1 ≤ (queue requests).length
      ∧ s.skipped = .empty
      ∧ r.employeeId ∉ employees ((queue requests).take k) := by
  rcases hs.waiting with ⟨hdrop, hskipped⟩ | ⟨hnil, -⟩
  · rw [hpending] at hdrop
    have hget : (queue requests)[k]? = some r := by
      rw [← List.head?_drop, ← hdrop]
      rfl
    obtain ⟨hk, -⟩ := List.getElem?_eq_some_iff.1 hget
    refine ⟨?_, ?_, hk, hskipped, ?_⟩
    · rw [List.take_add_one, hget]
      rfl
    · rw [← List.drop_drop, ← hdrop]
      rfl
    · intro hmem
      have hwaits : r.employeeId ∈ employees ((queue requests).drop k) := by
        rw [← hdrop]
        exact mem_employees List.mem_cons_self
      exact not_mem_drop_of_mem_take hmem hwaits
  · rw [hpending] at hnil
    cases hnil

theorem Accounts.dispatch {s : State} {r : Request} {rest : List Request}
    (hs : Accounts calculator requests k s)
    (hpending : s.pending = r :: rest) :
    Accounts calculator requests (k + 1) { s with
      pending := rest
      running := s.running ++ [r]
      inFlight := s.inFlight.insert r.employeeId ()
      permits := s.permits - 1 } := by
  obtain ⟨htake, hrest, hle, hskipped, hnew⟩ := hs.next hpending
  -- the new employee is in flight now, and was in nobody's place before
  have hcollected : ∀ id o,
      Collected calculator ((queue requests).take (k + 1))
        (s.inFlight.insert r.employeeId ()) id o
      ↔ Collected calculator ((queue requests).take k) s.inFlight id o := by
    intro id o
    rw [Collected, Collected, htake, answers_append, Named.get?_insert]
    by_cases hid : id = r.employeeId
    · subst hid
      rw [if_pos rfl]
      constructor
      · nofun
      · rintro ⟨-, h⟩
        exact absurd h.mem hnew
    · rw [if_neg hid]
      constructor
      · rintro ⟨hnone, h | ⟨h, -⟩⟩
        · exact ⟨hnone, h⟩
        · exact absurd h.symm hid
      · rintro ⟨hnone, h⟩
        exact ⟨hnone, .inl h⟩
  exact {
    le_length := hle
    waiting := .inl ⟨hrest, hskipped⟩
    running := by
      intro r' hr'
      rw [htake]
      exact (List.mem_append.1 hr').elim
        (fun h => List.mem_append_left _ (hs.running r' h))
        (List.mem_append_right _)
    finished := by
      intro id o ho
      rw [htake, answers_append]
      exact .inl (hs.finished id o ho)
    once := by
      rw [(uncollected_dispatch s r rest).nodup_iff, List.nodup_cons]
      exact ⟨fun h => hnew (hs.inFlight _ (hs.owed _ h)), hs.once⟩
    owed := by
      intro id hid
      rw [Named.get?_insert]
      by_cases heq : id = r.employeeId
      · rw [if_pos heq]
      · rw [if_neg heq]
        refine hs.owed id ?_
        rw [(uncollected_dispatch s r rest).mem_iff, List.mem_cons] at hid
        exact hid.resolve_left heq
    inFlight := by
      intro id hid
      rw [htake, employees, List.map_append, List.mem_append]
      rw [Named.get?_insert] at hid
      by_cases heq : id = r.employeeId
      · exact .inr (List.mem_singleton.2 heq)
      · rw [if_neg heq] at hid
        exact .inl (hs.inFlight id hid)
    payslips := by
      intro id p
      rw [hcollected]
      exact hs.payslips id p
    errors := by
      intro id e
      rw [hcollected]
      exact hs.errors id e }

theorem Accounts.complete {s : State} {i : Nat} {r : Request}
    (hs : Accounts calculator requests k s)
    (hrunning : s.running[i]? = some r) :
    Accounts calculator requests k { s with
      running := s.running.eraseIdx i
      finished := s.finished ++ [some (r.employeeId, isolate calculator r)]
      permits := s.permits + 1 } := by
  have hperm := uncollected_complete hrunning (isolate calculator r)
  have hr : r ∈ (queue requests).take k :=
    hs.running r (List.mem_of_getElem? hrunning)
  exact { hs with
    running := fun r' hr' => hs.running r' (List.mem_of_mem_eraseIdx hr')
    finished := by
      intro id o ho
      rcases List.mem_append.1 ho with ho | ho
      · exact hs.finished id o ho
      · cases List.mem_singleton.1 ho
        exact ⟨r, hr, rfl, rfl⟩
    once := hperm.nodup_iff.1 hs.once
    owed := fun id hid => hs.owed id (hperm.mem_iff.2 hid) }

theorem Accounts.lose {s : State} {i : Nat} {r : Request}
    (hs : Accounts calculator requests k s)
    (hrunning : s.running[i]? = some r) :
    Accounts calculator requests k { s with
      running := s.running.eraseIdx i
      finished := s.finished ++ [none]
      permits := s.permits + 1 } := by
  have hperm : s.uncollected.Perm (r.employeeId ::
      (employees (s.running.eraseIdx i)
        ++ reported (s.finished ++ [none]))) := by
    rw [reported_append]
    rw [show reported [none] = [] from rfl, List.append_nil]
    exact uncollected_running hrunning
  exact { hs with
    running := fun r' hr' => hs.running r' (List.mem_of_mem_eraseIdx hr')
    finished := by
      intro id o ho
      rcases List.mem_append.1 ho with ho | ho
      · exact hs.finished id o ho
      · cases List.mem_singleton.1 ho
    once := (List.nodup_cons.1 (hperm.nodup_iff.1 hs.once)).2
    owed := fun id hid =>
      hs.owed id (hperm.mem_iff.2 (List.mem_cons_of_mem _ hid)) }

/-- Once the outcome of an employee of the first `k` is collected, it is
the answer for that employee, and the others have theirs as before. -/
theorem collected_erase {s : State} {id : String} {o : Outcome}
    (ho : Answers calculator ((queue requests).take k) id o) (id' : String)
    (o' : Outcome) :
    Collected calculator ((queue requests).take k) (s.inFlight.erase id)
        id' o'
      ↔ if id' = id then o' = o
        else Collected calculator ((queue requests).take k) s.inFlight
          id' o' := by
  rw [Collected, Named.get?_erase]
  by_cases hid : id' = id
  · subst hid
    rw [if_pos rfl, if_pos rfl, answers_unique ho]
    exact ⟨And.right, fun h => ⟨rfl, h⟩⟩
  · rw [if_neg hid, if_neg hid]
    rfl

/-- Where no payslip is filed yet, an outcome files the one that it
holds. -/
theorem get?_payslips_record {s : State} {id : String}
    (hnone : s.payslips.get? id = none) (o : Outcome) (id' : String)
    (p : Payslip) :
    (s.record id o).payslips.get? id' = some p
      ↔ if id' = id then .ok p = o else s.payslips.get? id' = some p := by
  cases o with
  | ok q =>
      rw [State.record, Named.get?_insert]
      split
      · rw [Option.some_inj, Except.ok.injEq, eq_comm]
      · rfl
  | error e =>
      rw [State.record]
      split
      · rename_i heq
        rw [heq, hnone]
        simp only [reduceCtorEq]
      · rfl

theorem get?_errors_record {s : State} {id : String}
    (hnone : s.errors.get? id = none) (o : Outcome) (id' : String)
    (e : Error) :
    (s.record id o).errors.get? id' = some e
      ↔ if id' = id then .error e = o
        else s.errors.get? id' = some e := by
  cases o with
  | ok p =>
      rw [State.record]
      split
      · rename_i heq
        rw [heq, hnone]
        simp only [reduceCtorEq]
      · rfl
  | error e' =>
      rw [State.record, Named.get?_insert]
      split
      · rw [Option.some_inj, Except.error.injEq, eq_comm]
      · rfl

/-- Nothing is filed for an employee in flight. -/
theorem Accounts.unfiled {s : State} {id : String}
    (hs : Accounts calculator requests k s)
    (hflying : s.inFlight.get? id = some ()) :
    s.payslips.get? id = none ∧ s.errors.get? id = none := by
  have hout : ∀ o, ¬ Collected calculator ((queue requests).take k)
      s.inFlight id o := by
    rintro o ⟨hnone, -⟩
    rw [hflying] at hnone
    cases hnone
  have honce := occurs_once_of_mem_take (hs.inFlight id hflying)
  constructor
  · rw [Option.eq_none_iff_forall_ne_some]
    intro p hp
    exact hout _ ((hs.payslips id p).1 hp)
  · rw [Option.eq_none_iff_forall_ne_some]
    intro e he
    rcases (hs.errors id e).1 he with hdup | hcollected
    · rw [get?_duplicates, if_neg (by omega)] at hdup
      cases hdup
    · exact hout _ hcollected

theorem Accounts.collect {s : State} {i : Nat} {id : String} {o : Outcome}
    (hs : Accounts calculator requests k s)
    (hfinished : s.finished[i]? = some (some (id, o))) :
    Accounts calculator requests k ((s.takeOut i id).record id o) := by
  have ho := hs.finished id o (List.mem_of_getElem? hfinished)
  have hperm : s.uncollected.Perm
      (id :: (employees s.running ++ reported (s.finished.eraseIdx i))) :=
    uncollected_finished hfinished
  obtain ⟨hout, honce⟩ := List.nodup_cons.1 (hperm.nodup_iff.1 hs.once)
  obtain ⟨hunpaid, hunfailed⟩ := hs.unfiled
    (hs.owed id (hperm.mem_iff.2 List.mem_cons_self))
  have hended : ∀ id' o', some (id', o') ∈ s.finished.eraseIdx i →
      Answers calculator ((queue requests).take k) id' o' :=
    fun id' o' h => hs.finished id' o' (List.mem_of_mem_eraseIdx h)
  have howed : ∀ id' ∈ employees s.running
      ++ reported (s.finished.eraseIdx i),
      (s.inFlight.erase id).get? id' = some () := by
    intro id' hid'
    have hne : id' ≠ id := by
      rintro rfl
      exact hout hid'
    rw [Named.get?_erase, if_neg hne]
    exact hs.owed id' (hperm.mem_iff.2 (List.mem_cons_of_mem _ hid'))
  have hflying : ∀ id', (s.inFlight.erase id).get? id' = some () →
      id' ∈ employees ((queue requests).take k) := by
    intro id' hid'
    rw [Named.get?_erase] at hid'
    split at hid'
    · cases hid'
    · exact hs.inFlight id' hid'
  have hpayslips : ∀ id' p,
      ((s.takeOut i id).record id o).payslips.get? id' = some p
      ↔ Collected calculator ((queue requests).take k)
          (s.inFlight.erase id) id' (.ok p) := by
    intro id' p
    rw [get?_payslips_record (s := s.takeOut i id) hunpaid,
      collected_erase ho]
    split
    · rfl
    · exact hs.payslips id' p
  have herrors : ∀ id' e,
      ((s.takeOut i id).record id o).errors.get? id' = some e
      ↔ (duplicates requests).get? id' = some e
        ∨ Collected calculator ((queue requests).take k)
            (s.inFlight.erase id) id' (.error e) := by
    intro id' e
    rw [get?_errors_record (s := s.takeOut i id) hunfailed,
      collected_erase ho]
    split
    · rename_i heq
      have hsingle := occurs_once_of_mem_take ho.mem
      rw [heq, get?_duplicates, if_neg (by omega)]
      simp only [reduceCtorEq, false_or]
    · exact hs.errors id' e
  rw [record_eq]
  exact { hs with
    finished := hended
    once := honce
    owed := howed
    inFlight := hflying
    payslips := hpayslips
    errors := herrors }

theorem Accounts.collectLost {s : State} {i : Nat}
    (hs : Accounts calculator requests k s)
    (hfinished : s.finished[i]? = some none) :
    Accounts calculator requests k
      { s with finished := s.finished.eraseIdx i } := by
  have hperm : s.uncollected.Perm
      (employees s.running ++ reported (s.finished.eraseIdx i)) :=
    uncollected_finished hfinished
  exact { hs with
    finished := fun id o h =>
      hs.finished id o (List.mem_of_mem_eraseIdx h)
    once := hperm.nodup_iff.1 hs.once
    owed := fun id hid => hs.owed id (hperm.mem_iff.2 hid) }

theorem Accounts.stop {s : State} (hs : Accounts calculator requests k s)
    (hpending : s.pending ≠ []) (hcancelled : s.cancelled = true) :
    Accounts calculator requests k { s with
      pending := []
      skipped := s.pending.foldl
        (fun m r => m.insert r.employeeId ()) s.skipped } := by
  obtain ⟨hdrop, hskipped⟩ := hs.waiting.resolve_right
    fun h => hpending h.1
  refine { hs with waiting := .inr ⟨rfl, hcancelled, ?_⟩ }
  intro id
  have hfold : s.pending.foldl (fun m r => m.insert r.employeeId ())
      s.skipped
      = (employees s.pending).foldl (fun m n => m.insert n ()) .empty := by
    rw [hskipped, employees, List.foldl_map]
  rw [hfold, Named.get?_foldl_insert fun _ => (), Named.get?_empty, hdrop]
  simp only [Option.ite_none_right_eq_some, and_true]

theorem Accounts.cancel {s : State}
    (hs : Accounts calculator requests k s) :
    Accounts calculator requests k { s with cancelled := true } :=
  { hs with waiting := hs.waiting.imp_right fun h => ⟨h.1, rfl, h.2.2⟩ }

-- ================================================================== runs

/-- A dispatch takes one more request off the queue, and no other event
does. -/
theorem accounts_step {s s' : State} {e : Event}
    (hs : Accounts calculator requests k s)
    (h : step calculator s e = some s') :
    Accounts calculator requests (k + if e == .dispatch then 1 else 0)
      s' := by
  cases moves_of_step h with
  | dispatch hpending => exact hs.dispatch hpending
  | complete hrunning => exact hs.complete hrunning
  | lose hrunning => exact hs.lose hrunning
  | collect _ hfinished => exact hs.collect hfinished
  | collectLost _ hfinished => exact hs.collectLost hfinished
  | cancel => exact hs.cancel
  | stop hpending hcancelled => exact hs.stop hpending hcancelled

theorem accounts_follow {s s' : State} {es : List Event}
    (hs : Accounts calculator requests k s)
    (h : follow calculator s es = some s') :
    Accounts calculator requests (k + es.count .dispatch) s' := by
  induction es generalizing s k with
  | nil =>
      cases h
      exact hs
  | cons e es ih =>
      obtain ⟨t, hstep, hrest⟩ := follow_cons h
      have hrun := ih (accounts_step hs hstep) hrest
      rwa [Nat.add_right_comm, Nat.add_assoc, ← List.count_cons] at hrun

-- ================================================================ losses

/-- The employees whose calculations an event loses. -/
def State.lostBy (s : State) : Event → List String
  | .lose i => (s.running[i]?.map (·.employeeId)).toList
  | _ => []

/-- The employees whose calculations a run loses. -/
def losses (calculator : Calculator) (s : State) : List Event → List String
  | [] => []
  | e :: es =>
    s.lostBy e
      ++ ((step calculator s e).map (losses calculator · es)).getD []

theorem losses_eq_nil {es : List Event} (hkeeps : ∀ i, .lose i ∉ es)
    (s : State) : losses calculator s es = [] := by
  induction es generalizing s with
  | nil => rfl
  | cons e es ih =>
      have hrest : ∀ i, .lose i ∉ es :=
        fun i hmem => hkeeps i (List.mem_cons_of_mem e hmem)
      have hnone : s.lostBy e = [] := by
        cases e with
        | lose i => exact absurd List.mem_cons_self (hkeeps i)
        | _ => rfl
      rw [losses, hnone, List.nil_append]
      cases step calculator s e with
      | none => rfl
      | some t => exact ih hrest t

/-- Whoever is in flight has a calculation that will be collected,
unless it was lost. -/
def State.KeptBut (lost : List String) (s : State) : Prop :=
  ∀ id, s.inFlight.get? id = some () → id ∈ s.uncollected ∨ id ∈ lost

/-- Whoever is in flight has a calculation that will be collected. -/
def State.Kept (s : State) : Prop :=
  ∀ id, s.inFlight.get? id = some () → id ∈ s.uncollected

theorem kept_iff {s : State} : s.Kept ↔ s.KeptBut [] := by
  simp only [State.Kept, State.KeptBut, List.not_mem_nil, or_false]

theorem keptBut_takeOut {lost : List String} {s : State} {i : Nat}
    {id : String} {o : Outcome} (hs : s.KeptBut lost)
    (hfinished : s.finished[i]? = some (some (id, o))) :
    (s.takeOut i id).KeptBut lost := by
  intro id' hid'
  rw [State.takeOut, Named.get?_erase] at hid'
  split at hid'
  · cases hid'
  · rename_i hne
    refine (hs id' hid').imp_left fun hmem => ?_
    have hmem := (uncollected_finished hfinished).mem_iff.1 hmem
    exact (List.mem_cons.1 hmem).resolve_left hne

/-- Only losing a calculation leaves somebody in flight without one. -/
theorem keptBut_step {lost : List String} {s s' : State} {e : Event}
    (hs : s.KeptBut lost) (h : step calculator s e = some s') :
    s'.KeptBut (s.lostBy e ++ lost) := by
  cases moves_of_step h with
  | @dispatch r rest =>
      intro id hid
      rw [(uncollected_dispatch s r rest).mem_iff, List.mem_cons]
      rw [Named.get?_insert] at hid
      split at hid
      · rename_i heq
        exact .inl (.inl heq)
      · exact (hs id hid).imp_left .inr
  | complete hrunning =>
      intro id hid
      exact (hs id hid).imp_left (uncollected_complete hrunning _).mem_iff.1
  | @lose i r hrunning =>
      intro id hid
      rw [State.lostBy, hrunning, Option.map_some, Option.toList_some,
        List.singleton_append, List.mem_cons, State.uncollected,
        reported_append, show reported [none] = [] from rfl,
        List.append_nil]
      rcases hs id hid with hmem | hmem
      · rw [(uncollected_running hrunning).mem_iff, List.mem_cons] at hmem
        exact hmem.elim (fun heq => .inr (.inl heq)) .inl
      · exact .inr (.inr hmem)
  | collect _ hfinished =>
      rw [record_eq]
      exact keptBut_takeOut hs hfinished
  | collectLost _ hfinished =>
      intro id hid
      exact (hs id hid).imp_left (uncollected_finished hfinished).mem_iff.1
  | cancel => exact hs
  | stop => exact hs

theorem keptBut_follow {lost : List String} {s s' : State}
    {es : List Event} (hs : s.KeptBut lost)
    (h : follow calculator s es = some s') :
    s'.KeptBut (losses calculator s es ++ lost) := by
  induction es generalizing s lost with
  | nil =>
      cases h
      exact hs
  | cons e es ih =>
      obtain ⟨t, hstep, hrest⟩ := follow_cons h
      intro id hid
      refine (ih (keptBut_step hs hstep) hrest id hid).imp_right fun h => ?_
      rw [losses, hstep, Option.map_some, Option.getD_some,
        List.append_assoc, List.mem_append, List.mem_append]
      rw [List.mem_append, List.mem_append] at h
      exact h.elim (fun h => .inr (.inl h))
        fun h => h.elim .inl fun h => .inr (.inr h)

/-- A run that loses nothing leaves nobody without a calculation. -/
theorem kept_follow {s s' : State} {es : List Event} (hs : s.Kept)
    (hkeeps : ∀ i, .lose i ∉ es)
    (h : follow calculator s es = some s') : s'.Kept := by
  have hkept := keptBut_follow (kept_iff.1 hs) h
  rw [losses_eq_nil hkeeps] at hkept
  exact kept_iff.2 hkept

theorem kept_start (requests : List Request) (poolSize : Nat)
    (cancelled : Bool) : (start requests poolSize cancelled).Kept := by
  intro id h
  cases (Named.get?_empty id).symm.trans h

end Payroll.Batch
