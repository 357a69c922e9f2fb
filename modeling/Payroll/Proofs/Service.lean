/-
What the service pays. A record stands for what was last put in for an
employee and a period, however often it was put in before, and nothing
but a first record makes the number of records grow. A payslip is the
calculation of the record as it stands.

# Two entries

A payslip is to be had for one employee or from a batch. The batch
reports for an employee what the single calculation of the request comes
to, which is the payslip or the error; only a crash, which stops the
single calculation, is an error of its employee there (`outcomeOf`).
Nothing else about the batch shows in it: not who else is in the batch,
not the order of the events.

There is one difference. A batch needs a pool, and where a pool of the
size that the service was given cannot be set up, the batch stops before
it begins and reports nobody.
-/
import Payroll.Proofs.Batch.Entry
import Payroll.Proofs.Payslip.Answers
import Payroll.Service
import Mathlib.Data.List.Induction

namespace Payroll

-- ================================================================ records

namespace Records

variable {l : List Request} {records : Records} {id : String}
  {period : Period} {r : Request}

theorem concerns_iff : concerns id period r = true
    ↔ r.employeeId = id ∧ r.period = period := by
  rw [concerns, decide_eq_true_eq]

/-- What a record is known by. -/
def key (r : Request) : String × Period := (r.employeeId, r.period)

def keys (records : Records) : List (String × Period) :=
  records.requests.map key

theorem nodup_keys (records : Records) : records.keys.Nodup := by
  refine List.pairwise_map.2 (records.distinct.imp fun hne heq => hne ?_)
  exact ⟨congrArg Prod.fst heq, congrArg Prod.snd heq⟩

/-- Whoever has the employee and the period of a request is concerned
where the request is. -/
theorem concerns_congr {r' : Request}
    (h : concerns r.employeeId r.period r' = true) :
    concerns id period r' = concerns id period r := by
  obtain ⟨hid, hperiod⟩ := concerns_iff.1 h
  rw [concerns, concerns, hid, hperiod]

/-- What is put in is what is found for its employee and period, and
nothing else changes. -/
theorem lookup_insert : (records.insert r).lookup id period
    = if concerns id period r then .ok r else records.lookup id period := by
  have hfind : (records.insert r).requests.find? (concerns id period)
      = if concerns id period r then some r
        else records.requests.find? (concerns id period) := by
    rw [insert, List.find?_append, List.find?_singleton]
    split
    · rename_i h
      -- whatever was there for the same employee and period is taken out
      have hnone : (records.requests.filter
          (!concerns r.employeeId r.period ·)).find? (concerns id period)
          = none := by
        rw [List.find?_eq_none]
        intro r' hr' h'
        obtain ⟨rfl, rfl⟩ := concerns_iff.1 h
        rw [List.mem_filter, h'] at hr'
        exact Bool.false_ne_true hr'.2
      rw [hnone, Option.none_or]
    · rename_i h
      -- what is taken out was not looked for
      rw [List.find?_filter, Option.or_none]
      congr 1
      funext r'
      rw [Bool.eq_iff_iff, decide_eq_true_iff, Bool.not_eq_true',
        Bool.eq_false_iff]
      exact and_iff_right_of_imp fun h' hsame =>
        h (concerns_congr hsame ▸ h')
  rw [lookup, hfind]
  split_ifs
  · rfl
  · rfl

theorem mem_keys_insert {k : String × Period} :
    k ∈ (records.insert r).keys ↔ k ∈ records.keys ∨ k = key r := by
  rw [keys, insert, List.map_append, List.mem_append, List.map_singleton,
    List.mem_singleton]
  refine or_congr_left' fun hne => ?_
  simp only [keys, List.mem_map, List.mem_filter]
  refine exists_congr fun r' => and_congr_left fun h => ?_
  subst h
  refine and_iff_left ?_
  rw [Bool.not_eq_true', Bool.eq_false_iff]
  exact fun h => hne (Prod.ext_iff.2 (concerns_iff.1 h))

-- --------------------------------------------------------------- history

theorem ofList_concat (l : List Request) (r : Request) :
    ofList (l ++ [r]) = (ofList l).insert r := by
  rw [ofList, List.foldl_concat, ofList]

/-- The last request of a history about an employee and a period. -/
def LastFor (l : List Request) (id : String) (period : Period)
    (r : Request) : Prop :=
  ∃ earlier later, l = earlier ++ r :: later ∧ concerns id period r
    ∧ ∀ r' ∈ later, ¬concerns id period r'

theorem lastFor_iff_find? : LastFor l id period r
    ↔ l.reverse.find? (concerns id period) = some r := by
  simp only [List.find?_eq_some_iff_append, Bool.not_eq_true',
    ← Bool.not_eq_true]
  constructor
  · rintro ⟨earlier, later, rfl, hr, hlater⟩
    refine ⟨hr, later.reverse, earlier.reverse, ?_, fun r' hr' =>
      hlater r' (List.mem_reverse.1 hr')⟩
    rw [List.reverse_append, List.reverse_cons, List.append_assoc,
      List.singleton_append]
  · rintro ⟨hr, later, earlier, hl, hlater⟩
    refine ⟨earlier.reverse, later.reverse, ?_, hr, fun r' hr' =>
      hlater r' (List.mem_reverse.1 hr')⟩
    rw [← List.reverse_reverse l, hl, List.reverse_append,
      List.reverse_cons, List.append_assoc, List.singleton_append]

theorem lookup_ofList (l : List Request) (id : String) (period : Period) :
    (ofList l).lookup id period
      = match l.reverse.find? (concerns id period) with
        | some r => .ok r
        | none => .error (.employeeNotFound id period) := by
  induction l using List.reverseRec with
  | nil => rfl
  | append_singleton l r ih =>
      rw [ofList_concat, lookup_insert, ih, List.reverse_append,
        List.reverse_singleton, List.singleton_append, List.find?_cons]
      split_ifs with h
      · rw [h]
      · rw [Bool.eq_false_iff.2 h]

theorem mem_keys_ofList {k : String × Period} :
    k ∈ (ofList l).keys ↔ k ∈ l.map key := by
  induction l using List.reverseRec with
  | nil => rfl
  | append_singleton l r ih =>
      rw [ofList_concat, mem_keys_insert, ih, List.map_append,
        List.mem_append, List.map_singleton, List.mem_singleton]

/-- What records answer that a history led to: the last request about
an employee and a period, or that there is none, and as many requests
as the history has different employees and periods. -/
structure StandsFor (records : Records) (l : List Request) : Prop where
  found : ∀ id period r,
    records.lookup id period = .ok r ↔ LastFor l id period r
  missing : ∀ id period e, records.lookup id period = .error e
    ↔ e = .employeeNotFound id period ∧ ∀ r ∈ l, ¬concerns id period r
  size : records.size = (l.map key).dedup.length

theorem ofList_standsFor (l : List Request) : (ofList l).StandsFor l where
  found id period r := by
    rw [lookup_ofList, lastFor_iff_find?]
    split
    · rename_i r' hr'
      rw [hr', Except.ok.injEq, Option.some_inj]
    · rename_i hnone
      rw [hnone]
      exact iff_of_false nofun nofun
  missing id period e := by
    have hnone : (∀ r ∈ l, ¬concerns id period r)
        ↔ l.reverse.find? (concerns id period) = none := by
      simp only [List.find?_eq_none, List.mem_reverse]
    rw [lookup_ofList, hnone]
    split
    · rename_i r' hr'
      rw [hr']
      exact iff_of_false nofun fun h => nomatch h.2
    · rename_i hfind
      rw [hfind, Except.error.injEq, eq_comm]
      exact (and_iff_left rfl).symm
  size := by
    have hperm : (ofList l).keys.Perm (l.map key).dedup :=
      (List.perm_ext_iff_of_nodup (nodup_keys _) (List.nodup_dedup _)).2
        fun k => mem_keys_ofList.trans List.mem_dedup.symm
    rw [size, ← hperm.length_eq, keys, List.length_map]

end Records

-- ================================================================= batch

namespace Batch

/-- What a batch reports where a single calculation comes to this. -/
def outcomeOf : Except Failure Payslip → Outcome
  | .ok p => .ok p
  | .error (.error e) => .error e
  | .error (.crash c) => .error (.calculation (.crashed c))

variable {calculator : Calculator} {requests : List Request}
  {r : Request}

theorem isolate_eq : isolate calculator r = outcomeOf (calculator r) := rfl

/-- A request whose employee has no other is to be reported as it is
calculated. -/
theorem entry_eq (hr : r ∈ requests)
    (honce : occurrences requests r.employeeId = 1) :
    entry calculator requests r.employeeId
      = some (outcomeOf (calculator r)) := by
  rw [entry_of_once hr honce, isolate_eq]

end Batch

-- =============================================================== service

namespace Service

open Records Batch

variable {s : Service} {book : RuleBook} {l : List Request}

theorem calculateBatch_eq_ok {requests : List Request} {cancelled : Bool}
    {result : Result} (hrules : s.rules = .ok book) :
    s.calculateBatch requests cancelled = .ok result
      ↔ run (fun r => calculate r book s.asOf) requests s.poolSize
        cancelled none = .ok result := by
  rw [calculateBatch, hrules]
  simp only [compute]
  cases run (fun r => calculate r book s.asOf) requests s.poolSize
    cancelled none with
  | error c => exact iff_of_false nofun nofun
  | ok result' =>
      show Except.ok result' = _ ↔ _
      rw [Except.ok.injEq, Except.ok.injEq]

/-- What the batches of a service report for an employee under a book,
whoever picks their events. -/
structure Reports (s : Service) (book : RuleBook)
    (requests : List Request) (id : String) (o : Outcome) : Prop where
  /-- A batch that is left to itself comes to a result. -/
  undisturbed : s.poolSize ≤ maxPermits → ∃ result,
    s.calculateBatch requests false = .ok result
      ∧ result.Files id (some o)
  /-- No batch is ever stuck. -/
  unstuck : ∀ es t,
    follow (fun r => calculate r book s.asOf)
      (start requests s.poolSize false) es = some t →
    t.Done ∨ ∃ e t', e ≠ .cancel
      ∧ step (fun r => calculate r book s.asOf) t e = some t'
  /-- A batch that ends, not cancelled, has the outcome, if it did not
  lose the calculation. -/
  done : ∀ es t,
    follow (fun r => calculate r book s.asOf)
      (start requests s.poolSize false) es = some t →
    .cancel ∉ es → t.Done →
      id ∉ losses (fun r => calculate r book s.asOf)
        (start requests s.poolSize false) es →
      t.result.Files id (some o)

theorem reports_once {requests : List Request} {r : Request}
    (hrules : s.rules = .ok book) (hr : r ∈ requests)
    (honce : occurrences requests r.employeeId = 1) :
    s.Reports book requests r.employeeId
      (outcomeOf (calculate r book s.asOf)) := by
  have hentry := @entry_eq (fun r => calculate r book s.asOf) _ _ hr honce
  exact {
    undisturbed := fun hpool => by
      obtain ⟨result, hrun, hfiles⟩ := run_files hpool
      exact ⟨result, (calculateBatch_eq_ok hrules).2 hrun,
        hentry ▸ hfiles r.employeeId⟩
    unstuck := fun _ _ h => done_or_step h
    done := fun _ _ h hcancel hdone hkept =>
      hentry ▸ files_of_run h hcancel hdone hkept }

/-- With its rules at hand, a service pays by the last record of a
history, and refuses where there is none. A batch that has the same
request once, and no other of the employee, reports what the single
calculation comes to. -/
theorem entry_points_agree (hrules : s.rules = .ok book)
    (hrecords : s.records = .ofList l) :
    s.records.StandsFor l
      ∧ (∀ id period, (∀ r ∈ l, ¬concerns id period r) →
        s.calculatePayroll id period
          = .error (.error (.employeeNotFound id period)))
      ∧ ∀ id period r, LastFor l id period r →
        s.calculatePayroll id period = calculate r book s.asOf
        ∧ ∀ requests, r ∈ requests → occurrences requests id = 1 →
          s.Reports book requests id
            (outcomeOf (s.calculatePayroll id period)) := by
  have hstands : s.records.StandsFor l := hrecords ▸ ofList_standsFor l
  refine ⟨hstands, fun id period hnone => ?_, fun id period r hr => ?_⟩
  · have hlookup := (hstands.missing id period _).2 ⟨rfl, hnone⟩
    rw [calculatePayroll, hrules, hlookup]
  · have hlookup := (hstands.found id period r).2 hr
    have hpayroll : s.calculatePayroll id period
        = calculate r book s.asOf := by
      rw [calculatePayroll, hrules, hlookup]
    obtain ⟨-, -, -, hconcerns, -⟩ := hr
    obtain ⟨rfl, -⟩ := concerns_iff.1 hconcerns
    refine ⟨hpayroll, fun requests hmem honce => ?_⟩
    rw [hpayroll]
    exact reports_once hrules hmem honce

/-- The month of a cashier. -/
def cashier (baseSalary : Decimal) : Request :=
  { employeeId := "A-1"
    period := .of 2024 3
    baseSalary
    regularHours := 160 }

/-- The salary of the cashier was put right, after a request that no
calculation comes to the end of. -/
def history : List Request :=
  [cashier 325000, Senegal.overpaid, cashier 350000]

def shop (poolSize : Nat) : Service :=
  { rules := .ok Senegal.book
    records := .ofList history
    poolSize
    asOf := (Period.of 2024 3).lastDay }

theorem calculate_cashier : ∃ p,
    calculate (cashier 350000) Senegal.book (Period.of 2024 3).lastDay
        = .ok p
      ∧ p.baseSalary = 350000 := by
  have hpaid : (calculate (cashier 350000) Senegal.book
      (Period.of 2024 3).lastDay).toOption.any
        (·.baseSalary = 350000) = true := by
    decide +kernel
  obtain ⟨p, hp, hbase⟩ := exists_ok_of_any hpaid
  exact ⟨p, hp, of_decide_eq_true hbase⟩

/-- The cashier is paid by the new salary, alone and in a batch. The
other calculation crashes alone, and is an error in the batch. -/
theorem entry_points_agree_shop :
    (shop 8).records.size = 2
      ∧ (shop 8).records.lookup "A-1" (.of 2024 3) = .ok (cashier 350000)
      ∧ (shop 8).calculatePayroll "A-1" (.of 2024 4)
        = .error (.error (.employeeNotFound "A-1" (.of 2024 4)))
      ∧ (shop 8).calculatePayroll "E-1" (.of 2024 3)
        = .error (.crash (.fault .additionOverflow))
      ∧ ∃ p result, (shop 8).calculatePayroll "A-1" (.of 2024 3) = .ok p
        ∧ p.baseSalary = 350000
        ∧ (shop 8).calculateBatch [Senegal.overpaid, cashier 350000] false
          = .ok result
        ∧ result.payslips.get? "A-1" = some p
        ∧ result.errors.get? "E-1"
          = some (.calculation (.crashed (.fault .additionOverflow))) := by
  obtain ⟨hstands, hmissing, hfound⟩ :=
    @entry_points_agree (shop 8) _ _ rfl rfl
  have hlast : LastFor history "A-1" (.of 2024 3) (cashier 350000) :=
    ⟨[cashier 325000, Senegal.overpaid], [], rfl, by decide,
      List.forall_mem_nil _⟩
  have hover : LastFor history "E-1" (.of 2024 3) Senegal.overpaid :=
    ⟨[cashier 325000], [cashier 350000], rfl, by decide, by decide⟩
  obtain ⟨hsingle, hbatch⟩ := hfound _ _ _ hlast
  obtain ⟨hcrash, hbatch'⟩ := hfound _ _ _ hover
  obtain ⟨p, hp, hbase⟩ := calculate_cashier
  have hfault : calculate Senegal.overpaid Senegal.book
      (Period.of 2024 3).lastDay
        = .error (.crash (.fault .additionOverflow)) :=
    calculate_of_totalAllowances_fault (s := Senegal.snapshot)
      (by decide +kernel) Senegal.totalAllowances_overpaid
  obtain ⟨result, hrun, hfiles⟩ :=
    (hbatch [Senegal.overpaid, cashier 350000] (by simp)
      (by decide)).undisturbed (by decide)
  obtain ⟨result', hrun', hfiles'⟩ :=
    (hbatch' [Senegal.overpaid, cashier 350000] (by simp)
      (by decide)).undisturbed (by decide)
  cases hrun.symm.trans hrun'
  refine ⟨hstands.size.trans (by decide), (hstands.found _ _ _).2 hlast,
    hmissing _ _ (by decide), hcrash.trans hfault, p, result,
    hsingle.trans hp, hbase, hrun, (hfiles.payslip p).2 ?_,
    (hfiles'.error _).2 ?_⟩
  · rw [hsingle.trans hp]
    rfl
  · rw [hcrash.trans hfault]
    rfl

/-- Where the pool has no bound, the cashier is paid alone and no batch
reports it. -/
theorem no_entry_of_unbounded_pool :
    ∃ p, (shop 18446744073709551615).calculatePayroll "A-1" (.of 2024 3)
        = .ok p
      ∧ ¬∃ result, (shop 18446744073709551615).calculateBatch
          [cashier 350000] false = .ok result
        ∧ result.payslips.get? "A-1" = some p := by
  obtain ⟨p, hp, -⟩ := calculate_cashier
  refine ⟨p, hp, ?_⟩
  rintro ⟨result, hbatch, -⟩
  have hrun := (calculateBatch_eq_ok rfl).1 hbatch
  exact absurd (le_maxPermits_of_run hrun) (by decide)

end Service

end Payroll
