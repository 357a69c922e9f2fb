/-
What a valid report vouches for. The checks that look at one thing each
say that salary, allowances and deductions are not negative
(`Accepted`). The bounds, where there are any, say that deductions and
withholdings together stay within the gross (`Covered`).

`Estimate` takes the bounds apart as `Stages` takes the calculation
apart. Estimate and calculation run through the same stages; the
estimate does so twice where floors and ceilings differ.
-/
import Payroll.Proofs.Snapshot
import Payroll.Validation.Basic

namespace Payroll

open Decimal

variable {r : Request} {s : Snapshot} {asOf : Date} {report : Report}

-- ================================================================ reports

/-- What each finding adds to a report. -/
theorem Report.foldl_eq {found : List Finding} {report : Report} :
    found.foldl (fun r f => if f.blocks then r.addError f.issue
      else r.addWarning f.issue) report = {
        valid := report.valid && !found.any (·.blocks)
        errors := report.errors ++ (found.filter (·.blocks)).map (·.issue)
        warnings := report.warnings
          ++ (found.filter (!·.blocks)).map (·.issue) } := by
  induction found generalizing report with
  | nil => simp
  | cons f rest ih =>
      rw [List.foldl_cons, ih]
      cases hf : f.blocks with
      | false => simp [Report.addWarning, hf]
      | true => simp [Report.addError, hf]

/-- A report is valid if nothing that was found forbids the calculation;
what does is an error, and the rest is announced. -/
theorem Report.ofFindings_eq (found : List Finding) :
    Report.ofFindings found = {
      valid := !found.any (·.blocks)
      errors := (found.filter (·.blocks)).map (·.issue)
      warnings := (found.filter (!·.blocks)).map (·.issue) } := by
  rw [Report.ofFindings, Report.foldl_eq]
  rfl

theorem Report.valid_ofFindings (found : List Finding) :
    (Report.ofFindings found).valid = !found.any (·.blocks) := by
  rw [Report.ofFindings_eq]

theorem Report.errors_ofFindings (found : List Finding) :
    (Report.ofFindings found).errors
      = (found.filter (·.blocks)).map (·.issue) := by
  rw [Report.ofFindings_eq]

/-- What is reported as an error forbids the calculation. -/
theorem Report.exists_blocks_of_hasError {found : List Finding}
    {code : String} (h : (Report.ofFindings found).hasError code = true) :
    ∃ f ∈ found, f.blocks = true := by
  rw [Report.hasError, Report.errors_ofFindings, List.any_eq_true] at h
  obtain ⟨i, hi, -⟩ := h
  obtain ⟨f, hf, -⟩ := List.mem_map.1 hi
  exact ⟨f, List.mem_filter.1 hf⟩

/-- The ways to a report: the checks found something that forbids the
calculation, or they did not and the bounds were asked. -/
inductive Reported (r : Request) (s : Snapshot) (asOf : Date) :
    Report → Prop
  | forbidden {found : List Finding}
      (hfound : Validation.examine r s asOf = .ok found)
      (hblocks : ∃ f ∈ found, f.blocks = true) :
      Reported r s asOf (.ofFindings found)
  | unbounded {found : List Finding}
      (hfound : Validation.examine r s asOf = .ok found)
      (hfree : ∀ f ∈ found, f.blocks = false)
      (hnone : NetBounds.estimate r s = .ok none) :
      Reported r s asOf (.ofFindings found)
  | bounded {found more : List Finding} {b : NetBounds}
      (hfound : Validation.examine r s asOf = .ok found)
      (hfree : ∀ f ∈ found, f.blocks = false)
      (hb : NetBounds.estimate r s = .ok (some b))
      (hmore : Validation.checkBounds b = .ok more) :
      Reported r s asOf (.ofFindings (found ++ more))

theorem reported_of_validate (h : validate r s asOf = .ok report) :
    Reported r s asOf report := by
  unfold validate at h
  obtain ⟨found, hfound, h⟩ := bind_eq_ok.1 h
  rw [liftM_fault_crash_eq_ok] at hfound
  split at h
  · rename_i hblocks
    cases h
    exact .forbidden hfound (List.any_eq_true.1 hblocks)
  · rename_i hfree
    rw [Bool.not_eq_true, List.any_eq_false] at hfree
    have hfree' : ∀ f ∈ found, f.blocks = false :=
      fun f hf => Bool.eq_false_iff.2 (hfree f hf)
    obtain ⟨bounds, hbounds, h⟩ := bind_eq_ok.1 h
    cases bounds with
    | none =>
        cases h
        exact .unbounded hfound hfree' hbounds
    | some b =>
        obtain ⟨more, hmore, h⟩ := bind_eq_ok.1 h
        rw [liftM_fault_crash_eq_ok] at hmore
        cases h
        exact .bounded hfound hfree' hbounds hmore

/-- Where the report is valid, no check and no bound found anything that
forbids the calculation. -/
theorem of_valid (h : validate r s asOf = .ok report)
    (hvalid : report.valid = true) :
    (∃ found, Validation.examine r s asOf = .ok found
        ∧ ∀ f ∈ found, f.blocks = false)
      ∧ ∀ b, NetBounds.estimate r s = .ok (some b) →
        ∃ more, Validation.checkBounds b = .ok more
          ∧ ∀ f ∈ more, f.blocks = false := by
  cases reported_of_validate h with
  | forbidden hfound hblocks =>
      rw [Report.valid_ofFindings, Bool.not_eq_true', List.any_eq_false]
        at hvalid
      obtain ⟨f, hf, hblocks⟩ := hblocks
      exact absurd hblocks (hvalid f hf)
  | unbounded hfound hfree hnone =>
      refine ⟨⟨_, hfound, hfree⟩, fun b hb => ?_⟩
      cases hnone.symm.trans hb
  | bounded hfound hfree hb hmore =>
      refine ⟨⟨_, hfound, hfree⟩, fun b' hb' => ?_⟩
      cases hb.symm.trans hb'
      rw [Report.valid_ofFindings, Bool.not_eq_true', List.any_eq_false]
        at hvalid
      exact ⟨_, hmore, fun f hf => Bool.eq_false_iff.2
        (hvalid f (List.mem_append_right _ hf))⟩

-- ============================================================= the checks

/-- A request whose amounts have the right signs. -/
structure Accepted (r : Request) : Prop where
  salary_pos : 0 < r.baseSalary.toRat
  allowances_nonneg : ∀ a ∈ r.allowances.values, 0 ≤ a.toRat
  deductions_nonneg : ∀ a ∈ r.deductions.values, 0 ≤ a.toRat

/-- A request whose amounts have at most four places. -/
structure Request.InLedger (r : Request) : Prop where
  base : Decimal.InLedger r.baseSalary.toRat
  allowances : ∀ a ∈ r.allowances.values, Decimal.InLedger a.toRat
  deductions : ∀ a ∈ r.deductions.values, Decimal.InLedger a.toRat

theorem Accepted.held_salary (h : Accepted r) (hr : r.InLedger) :
    Held r.baseSalary :=
  ⟨h.salary_pos.le, hr.base⟩

theorem Accepted.payable_allowances (h : Accepted r) (hr : r.InLedger) :
    Payable r.allowances.values :=
  fun a ha => ⟨h.allowances_nonneg a ha, hr.allowances a ha⟩

theorem Accepted.payable_deductions (h : Accepted r) (hr : r.InLedger) :
    Payable r.deductions.values :=
  fun a ha => ⟨h.deductions_nonneg a ha, hr.deductions a ha⟩

theorem nonneg_of_checkAmount (group : AmountGroup) {m : Named Decimal}
    (h : ∀ e ∈ m.entries, ∀ f ∈ Validation.checkAmount group e,
      f.blocks = false) :
    ∀ a ∈ m.values, 0 ≤ a.toRat := by
  intro a ha
  obtain ⟨e, he, rfl⟩ := List.mem_map.1 ha
  by_contra hneg
  rw [not_le, ← toRat_zero, ← lt_iff_toRat] at hneg
  have hfound : Finding.negativeAmount group e.1 e.2
      ∈ Validation.checkAmount group e := by
    rw [Validation.checkAmount, if_pos hneg]
    exact List.mem_append_right _ List.mem_cons_self
  have := h e he _ hfound
  cases this

/-- Where no check found anything that forbids the calculation, the
request is accepted, and what it asks to deduct stays within salary and
allowances. -/
theorem accepted_of_examine {found : List Finding}
    (hfound : Validation.examine r s asOf = .ok found)
    (hfree : ∀ f ∈ found, f.blocks = false) :
    Accepted r ∧ ∃ allowances fixedPay explicit,
      r.totalAllowances = .ok allowances
        ∧ r.baseSalary.add allowances = .ok fixedPay
        ∧ r.totalDeductions = .ok explicit
        ∧ explicit.toRat ≤ fixedPay.toRat := by
  unfold Validation.examine at hfound
  obtain ⟨deductions, hdeductions, hfound⟩ := bind_eq_ok.1 hfound
  cases hfound
  have hsalary : ∀ f ∈ Validation.checkSalary r s, f.blocks = false :=
    fun f hf => hfree f (by simp [hf])
  have hamounts : ∀ f ∈ Validation.checkAmounts r, f.blocks = false :=
    fun f hf => hfree f (by simp [hf])
  have hasked : ∀ f ∈ deductions, f.blocks = false :=
    fun f hf => hfree f (by simp [hf])
  refine ⟨⟨?_, ?_, ?_⟩, ?_⟩
  · by_contra hle
    rw [not_lt, ← toRat_zero, ← le_iff_toRat] at hle
    have := hsalary (.salaryNotPositive r.baseSalary) (by
      rw [Validation.checkSalary, if_pos hle]
      exact List.mem_cons_self)
    cases this
  · refine nonneg_of_checkAmount .allowances ?_
    intro e he f hf
    exact hamounts f (List.mem_append_left _
      (List.mem_flatMap.2 ⟨e, he, hf⟩))
  · refine nonneg_of_checkAmount .deductions ?_
    intro e he f hf
    exact hamounts f (List.mem_append_right _
      (List.mem_flatMap.2 ⟨e, he, hf⟩))
  · obtain ⟨allowances, hallowances, h⟩ := bind_eq_ok.1 hdeductions
    obtain ⟨fixedPay, hfixedPay, h⟩ := bind_eq_ok.1 h
    obtain ⟨explicit, hexplicit, h⟩ := bind_eq_ok.1 h
    refine ⟨allowances, fixedPay, explicit, hallowances, hfixedPay,
      hexplicit, ?_⟩
    by_contra hlt
    rw [not_le, ← lt_iff_toRat] at hlt
    rw [if_pos hlt] at h
    cases h
    have := hasked _ List.mem_cons_self
    cases this

/-- A valid report is about an accepted request. -/
theorem accepted_of_valid (h : validate r s asOf = .ok report)
    (hvalid : report.valid = true) : Accepted r := by
  obtain ⟨⟨found, hfound, hfree⟩, -⟩ := of_valid h hvalid
  exact (accepted_of_examine hfound hfree).1

/-- Bounds under which all that is taken off stays within the gross. -/
structure Covered (b : NetBounds) : Prop where
  deductions_le : b.deductions.toRat ≤ b.gross.toRat
  total : ∃ t, b.deductions.add b.withholdings = .ok t
    ∧ t.toRat ≤ b.gross.toRat

/-- A valid report is about bounds that are covered. -/
theorem covered_of_valid {b : NetBounds}
    (h : validate r s asOf = .ok report) (hvalid : report.valid = true)
    (hb : NetBounds.estimate r s = .ok (some b)) : Covered b := by
  obtain ⟨-, hbounds⟩ := of_valid h hvalid
  obtain ⟨more, hmore, hfree⟩ := hbounds b hb
  unfold Validation.checkBounds at hmore
  split at hmore
  · cases hmore
    have := hfree _ List.mem_cons_self
    cases this
  · rename_i hdeductions
    rw [lt_iff_toRat, not_lt] at hdeductions
    obtain ⟨t, ht, hmore⟩ := bind_eq_ok.1 hmore
    refine ⟨hdeductions, t, ht, ?_⟩
    by_contra hlt
    rw [not_le, ← lt_iff_toRat] at hlt
    rw [if_pos hlt] at hmore
    cases hmore
    have := hfree _ List.mem_cons_self
    cases this

/-- Bounds that report something: what is taken off may exceed the
gross. -/
def Uncovered (b : NetBounds) : Prop :=
  b.gross < b.deductions ∨ ∃ taken,
    b.deductions.add b.withholdings = .ok taken ∧ b.gross < taken

/-- An error that no check found was found by the bounds. -/
theorem uncovered_of_hasError {found : List Finding} {code : String}
    (hfound : Validation.examine r s asOf = .ok found)
    (hfree : ∀ f ∈ found, f.blocks = false)
    (h : validate r s asOf = .ok report)
    (herror : report.hasError code = true) :
    ∃ b, NetBounds.estimate r s = .ok (some b) ∧ Uncovered b := by
  cases reported_of_validate h with
  | forbidden hfound' hblocks =>
      cases hfound.symm.trans hfound'
      obtain ⟨f, hf, hblocks⟩ := hblocks
      rw [hfree f hf] at hblocks
      cases hblocks
  | unbounded _ hfree' =>
      obtain ⟨f, hf, hblocks⟩ := Report.exists_blocks_of_hasError herror
      rw [hfree' f hf] at hblocks
      cases hblocks
  | bounded _ hfree' hb hmore =>
      refine ⟨_, hb, ?_⟩
      obtain ⟨f, hf, hblocks⟩ := Report.exists_blocks_of_hasError herror
      rcases List.mem_append.1 hf with hf | hf
      · rw [hfree' f hf] at hblocks
        cases hblocks
      · unfold Validation.checkBounds at hmore
        split at hmore
        · rename_i hlt
          exact .inl hlt
        · obtain ⟨taken, htaken, hmore⟩ := bind_eq_ok.1 hmore
          refine .inr ⟨taken, htaken, ?_⟩
          by_contra hge
          rw [if_neg hge] at hmore
          cases hmore
          cases hf

-- ============================================================ the bounds

/-- The amounts on the way to the bounds of a request. -/
structure Estimate (r : Request) (s : Snapshot) where
  allowances : Decimal
  fixedPay : Decimal
  hourlyRate : Decimal
  overtime : Overtime
  overtimeFloor : Decimal
  overtimeCeiling : Decimal
  grossFloor : Decimal
  grossCeiling : Decimal
  least : Contributions
  most : Contributions
  employeeFloor : Decimal
  employeeCeiling : Decimal
  taxable : Decimal
  assessed : TaxAssessment
  dailyRate : Decimal
  adjustment : Adjustment
  withholdings : Decimal
  explicit : Decimal
  penalized : Decimal
  deductions : Decimal
  allowances_ok : r.totalAllowances = .ok allowances
  fixedPay_ok : r.baseSalary.add allowances = .ok fixedPay
  hourlyRate_ok : s.hourlyRate r.baseSalary = .ok hourlyRate
  overtime_ok : Overtime.compute r.overtimeHours hourlyRate s.overtime
    = .ok overtime
  overtimeFloor_ok : Decimal.sum (overtime.lines.map (·.amount.floor))
    = .ok overtimeFloor
  overtimeCeiling_ok : Decimal.sum (overtime.lines.map (·.amount.ceil))
    = .ok overtimeCeiling
  grossFloor_ok : fixedPay.add overtimeFloor = .ok grossFloor
  grossCeiling_ok : fixedPay.add overtimeCeiling = .ok grossCeiling
  least_ok : Contributions.compute grossFloor s.contributions = .ok least
  most_ok : Contributions.compute grossCeiling s.contributions = .ok most
  employeeFloor_ok :
    Decimal.sum (least.lines.map (·.employeeAmount.floor))
      = .ok employeeFloor
  employeeCeiling_ok :
    Decimal.sum (most.lines.map (·.employeeAmount.ceil))
      = .ok employeeCeiling
  taxable_ok : s.incomeTax.base.taxableIncome grossCeiling employeeFloor
    = .ok taxable
  assessed_ok : s.incomeTax.assess taxable = .ok assessed
  dailyRate_ok : s.dailyRate r.baseSalary = .ok dailyRate
  adjustment_ok : Adjustment.compute r.attendance dailyRate s.attendance
    s.dailyHours = .ok adjustment
  withholdings_ok : assessed.tax.ceil.add employeeCeiling
    = .ok withholdings
  explicit_ok : r.totalDeductions = .ok explicit
  penalized_ok : explicit.add adjustment.delayPenalty.ceil = .ok penalized
  deductions_ok : penalized.add adjustment.absenceDeduction.ceil
    = .ok deductions

namespace Estimate

def bounds (e : Estimate r s) : NetBounds :=
  { gross := e.grossFloor
    withholdings := e.withholdings
    deductions := e.deductions }

section Run

variable {ε α β : Type}

theorem run_bind_eq_some {x : OptionT (Except ε) α}
    {f : α → OptionT (Except ε) β} {b : β} :
    (x >>= f).run = .ok (some b)
      ↔ ∃ a, x.run = .ok (some a) ∧ (f a).run = .ok (some b) := by
  rw [OptionT.run_bind, Option.elimM, bind_eq_ok]
  constructor
  · rintro ⟨o, ho, h⟩
    cases o with
    | none => cases h
    | some a => exact ⟨a, ho, h⟩
  · rintro ⟨a, ha, h⟩
    exact ⟨some a, ha, h⟩

theorem run_liftM_eq_some {x : Except Fault α} {a : α} :
    (liftM x : OptionT (Except Crash) α).run = .ok (some a)
      ↔ x = .ok a := by
  cases x with
  | error e => exact ⟨nofun, nofun⟩
  | ok a' =>
      constructor
      · intro h
        cases h
        rfl
      · intro h
        cases h
        rfl

theorem run_attempt_eq_some {x : Except Failure α} {a : α} :
    (Failure.attempt x).run = .ok (some a) ↔ x = .ok a := by
  unfold Failure.attempt
  split
  · constructor
    · intro h
      cases h
      rfl
    · intro h
      cases h
      rfl
  · exact ⟨nofun, nofun⟩
  · exact ⟨nofun, nofun⟩

theorem run_pure_eq_some {o : Option α} {a : α} :
    (OptionT.mk (pure o) : OptionT (Except ε) α).run = .ok (some a)
      ↔ o = some a := by
  constructor
  · intro h
    cases h
    rfl
  · intro h
    subst h
    rfl

end Run

/-- Bounds come from the amounts of an estimate. -/
theorem of_estimate {b : NetBounds}
    (h : NetBounds.estimate r s = .ok (some b)) :
    ∃ e : Estimate r s, e.bounds = b := by
  unfold NetBounds.estimate NetBounds.compute at h
  simp only [run_bind_eq_some, run_liftM_eq_some, run_attempt_eq_some,
    run_pure_eq_some] at h
  obtain ⟨allowances, hallowances, fixedPay, hfixedPay, hourlyRate, hhourly,
    overtime, hovertime, overtimeFloor, hovertimeFloor, overtimeCeiling,
    hovertimeCeiling, grossFloor, hgrossFloor, grossCeiling, hgrossCeiling,
    least, hleast, most, hmost, employeeFloor, hemployeeFloor,
    employeeCeiling, hemployeeCeiling, taxable, htaxable, assessed,
    hassessed, dailyRate, hdaily, adjustment, hadjustment, withholdings,
    hwithholdings, explicit, hexplicit, penalized, hpenalized, deductions,
    hdeductions, h⟩ := h
  cases h
  exact ⟨{
    allowances, fixedPay, hourlyRate, overtime, overtimeFloor
    overtimeCeiling, grossFloor, grossCeiling, least, most, employeeFloor
    employeeCeiling, taxable, assessed, dailyRate, adjustment, withholdings
    explicit, penalized, deductions
    allowances_ok := hallowances
    fixedPay_ok := orFault_eq_ok.2 hfixedPay
    hourlyRate_ok := hhourly
    overtime_ok := hovertime
    overtimeFloor_ok := hovertimeFloor
    overtimeCeiling_ok := hovertimeCeiling
    grossFloor_ok := hgrossFloor
    grossCeiling_ok := hgrossCeiling
    least_ok := hleast
    most_ok := hmost
    employeeFloor_ok := hemployeeFloor
    employeeCeiling_ok := hemployeeCeiling
    taxable_ok := htaxable
    assessed_ok := hassessed
    dailyRate_ok := hdaily
    adjustment_ok := hadjustment
    withholdings_ok := hwithholdings
    explicit_ok := hexplicit
    penalized_ok := hpenalized
    deductions_ok := hdeductions }, rfl⟩

end Estimate

end Payroll
