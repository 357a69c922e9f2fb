/-
The shipped rules pay an ordinary employee. Whoever earns the minimum
wage, has nothing deducted and no unpaid absence passes validation, is
paid, and keeps two fifths of the gross, whatever the mix of salary,
allowances and overtime.

# The account

Of a gross no more is taken than

- 43 percent by the income tax, the highest of its rates: no fixed
  amount of the table exceeds that share of its bracket's lower bound;
- 8.6 percent by pension and health, which are all an employee pays,
  with or without their ceilings;
- a day's pay, which is a twenty-sixth of the salary, by a delay.

That leaves 44 percent. Rounding takes a dozen francs off it, in the
estimate a few more, and four percent of the minimum wage are 2568.

The same account is settled twice (`Taken`), on the highest gross of the
estimate and on the gross of the calculation.
-/
import Payroll.Proofs.IncomeTax.Share
import Payroll.Proofs.Payslip.Sizes
import Payroll.Proofs.Validation.Passing
import Payroll.Proofs.Validation.Sound

namespace Payroll.Senegal

open Decimal

/-- A month of an ordinary employee, reported on the day `asOf`. -/
structure OrdinaryMonth (r : Request) (asOf : Date) : Prop where
  named : Text.isBlankText r.employeeId = false
  salary : 64223 ≤ r.baseSalary.toRat
  allowances : ∀ e ∈ r.allowances.entries,
    Text.isBlankText e.1 = false ∧ 0 ≤ e.2.toRat
  no_deductions : r.deductions.entries = []
  overtimeHours : ∀ e ∈ r.overtimeHours.entries, 0 ≤ e.2.toRat
  regularHours_nonneg : 0 ≤ r.regularHours.toRat
  regularHours_le : r.regularHours.toRat ≤ 24 * r.period.days
  /-- Whoever works overtime works regular hours too. -/
  regularHours_pos : (∃ e ∈ r.overtimeHours.entries, 0 < e.2.toRat) →
    0 < r.regularHours.toRat
  delay : r.attendance.delayMinutes ≤ 1440
  absence_nonneg : 0 ≤ r.attendance.absenceDays.toRat
  absence_le : r.attendance.absenceDays.toRat ≤ r.period.days
  absence_paid : r.attendance.paidAbsence = true
    ∨ r.attendance.absenceDays.toRat = 0
  period_ge : .of 2024 1 ≤ r.period
  period_le : r.period ≤ Period.containing asOf
  inLedger : r.InLedger
  earnings_lt : r.baseSalary.toRat + total r.allowances.values
    + r.overtimeDue snapshot < 10 ^ 20

-- ============================================================== the rules

theorem proper_snapshot : snapshot.Proper :=
  Snapshot.proper_of_check check_snapshot

theorem upToDouble_overtime : ∀ rule ∈ overtime, rule.UpToDouble := by
  intro rule hrule
  have h : ∀ rule ∈ overtime, 1 ≤ rule.multiplier.toRat
      ∧ rule.multiplier.toRat ≤ 2 := by
    decide +kernel
  exact ⟨proper_snapshot.overtime rule hrule, (h rule hrule).1,
    (h rule hrule).2⟩

/-- Every category of overtime is paid. -/
theorem exists_overtimeRule (c : Category) :
    ∃ rule, OvertimeRule.find? overtime c = some rule := by
  cases c <;> exact ⟨_, rfl⟩

theorem takesAtMost_brackets :
    ∀ b ∈ brackets, BracketTable.TakesAtMost (43 / 100) b := by
  decide +kernel

theorem sum_employeeRate :
    (contributions.map (·.employeeRate.toRat)).sum = 86 / 1000 := by
  decide +kernel

theorem toRat_monthlyHours : snapshot.monthlyHours.toRat = 17333 / 100 := by
  decide +kernel

theorem toRat_workingDays : snapshot.workingDays.toRat = 26 := by
  decide +kernel

-- ====================================================== what is taken off

/-- Tax and contributions of a gross, as far as an employee pays
them. -/
structure Taken (gross : Decimal) where
  contributions : Contributions
  tax : TaxAssessment
  contributions_ok : Contributions.compute gross snapshot.contributions
    = .ok contributions
  tax_ok : snapshot.incomeTax.assess gross = .ok tax
  gross_le : gross.toRat ≤ 10 ^ 21
  tax_le : tax.tax.toRat ≤ 43 / 100 * gross.toRat + 2

theorem exists_taken {gross : Decimal} (hnonneg : 0 ≤ gross.toRat)
    (hle : gross.toRat ≤ 10 ^ 21) : Nonempty (Taken gross) := by
  obtain ⟨c, hc⟩ :=
    Contributions.exists_compute proper_snapshot.contributions hnonneg
  obtain ⟨t, ht, htax⟩ := snapshot.incomeTax.exists_assess_le_share
    takesAtMost_brackets (by norm_num) hnonneg (by linarith)
  exact ⟨⟨c, t, hc, ht, hle, htax⟩⟩

namespace Taken

variable {gross : Decimal} (k : Taken gross)

theorem tax_nonneg : 0 ≤ k.tax.tax.toRat :=
  snapshot.incomeTax.assess_nonneg k.tax_ok

/-- However the shares are rounded, if not beyond the next franc, they
add up to 8.6 percent and six francs at most. -/
theorem exists_sum {f : Decimal → Decimal}
    (hheld : ∀ a : Decimal, 0 ≤ a.toRat → Held (f a))
    (hf : ∀ a, (f a).toRat ≤ a.ceil.toRat) :
    ∃ sum, Decimal.sum (k.contributions.lines.map fun l =>
        f l.employeeAmount) = .ok sum
      ∧ Held sum ∧ sum.toRat ≤ 86 / 1000 * gross.toRat + 6 := by
  have hnonneg := Contributions.employee_nonneg
    proper_snapshot.contributions k.contributions_ok
  have hpay : Payable (k.contributions.lines.map fun l =>
      f l.employeeAmount) :=
    payable_map fun l hl => hheld _ (hnonneg l hl)
  have hgross := k.gross_le
  have hceil := Contributions.total_employee_ceil_le
    proper_snapshot.contributions (by linarith) k.contributions_ok
  have hcount : (snapshot.contributions.length : ℚ) = 4 := rfl
  have hrates : (snapshot.contributions.map
      (·.employeeRate.toRat)).sum = 86 / 1000 := sum_employeeRate
  have hle : total (k.contributions.lines.map fun l => f l.employeeAmount)
      ≤ 86 / 1000 * gross.toRat + 6 := by
    have := total_map_le (l := k.contributions.lines)
      fun l _ => hf l.employeeAmount
    rw [hcount, hrates] at hceil
    linarith
  obtain ⟨sum, hsum, hvalue, hheld⟩ := hpay.exists_sum (by linarith)
  exact ⟨sum, hsum, hheld, by rw [hvalue]; exact hle⟩

/-- Together they are 51.6 percent and a few francs at most. -/
theorem exists_withholdings : ∃ employee withholdings,
    Decimal.sum (k.contributions.lines.map (·.employeeAmount.ceil))
        = .ok employee
      ∧ k.tax.tax.ceil.add employee = .ok withholdings
      ∧ Held withholdings
      ∧ withholdings.toRat ≤ 516 / 1000 * gross.toRat + 9 := by
  have hgross := k.gross_le
  have htax := k.tax_le
  have hceil := toRat_ceil_le_add_one k.tax.tax
  obtain ⟨employee, hemployee, hheld, hle⟩ :=
    k.exists_sum (fun _ => held_ceil) fun _ => le_rfl
  obtain ⟨withholdings, hwithholdings, hvalue, hheld'⟩ :=
    (held_ceil k.tax_nonneg).exists_add hheld (by linarith)
  exact ⟨employee, withholdings, hemployee, hwithholdings, hheld',
    by linarith⟩

end Taken

-- ============================================================ the month

namespace OrdinaryMonth

variable {r : Request} {asOf : Date} (h : OrdinaryMonth r asOf)
include h

theorem worked : r.Worked snapshot :=
  ⟨fun e _ => exists_overtimeRule e.1, h.overtimeHours⟩

theorem orderly : r.Orderly snapshot asOf where
  named := h.named
  salary_pos := by linarith [h.salary]
  minimumWage_le := by
    have hwage : snapshot.minimumWage.toRat = 64223 := by decide +kernel
    rw [hwage]
    exact h.salary
  regularHours_nonneg := h.regularHours_nonneg
  regularHours_le := h.regularHours_le
  regularHours_pos := by
    intro hovertime
    rw [Validation.hasOvertime, List.any_eq_true] at hovertime
    obtain ⟨e, he, hpos⟩ := hovertime
    rw [decide_eq_true_eq, lt_iff_toRat, toRat_zero] at hpos
    exact h.regularHours_pos ⟨e, he, hpos⟩
  worked := h.worked
  allowances := h.allowances
  deductions := by
    rw [h.no_deductions]
    exact List.forall_mem_nil _
  period_le := h.period_le
  delay_le := h.delay
  absenceDays_nonneg := h.absence_nonneg
  absenceDays_le := h.absence_le

theorem accepted : Accepted r where
  salary_pos := by linarith [h.salary]
  allowances_nonneg := by
    intro a ha
    obtain ⟨e, he, rfl⟩ := List.mem_map.1 ha
    exact (h.allowances e he).2
  deductions_nonneg := by
    intro a ha
    rw [Named.values, h.no_deductions] at ha
    cases ha

theorem totalDeductions_eq : r.totalDeductions = .ok .zero := by
  rw [Request.totalDeductions, Named.values, h.no_deductions]
  rfl

theorem overtimeDue_nonneg : 0 ≤ r.overtimeDue snapshot := by
  have hsalary := h.salary
  refine Request.overtimeDue_nonneg proper_snapshot.overtime h.worked ?_
  rw [toRat_monthlyHours]
  positivity

theorem fixed_lt : r.baseSalary.toRat + total r.allowances.values
    < 10 ^ 20 := by
  linarith [h.earnings_lt, h.overtimeDue_nonneg]

theorem salary_lt : r.baseSalary.toRat < 10 ^ 20 := by
  have hpay := h.accepted.payable_allowances h.inLedger
  linarith [h.fixed_lt, hpay.nonneg]

/-- Salary, allowances and overtime have sums, and these leave room for
more. -/
theorem exists_earned : ∃ allowances fixedPay hourlyRate o,
    r.totalAllowances = .ok allowances
      ∧ r.baseSalary.add allowances = .ok fixedPay
      ∧ snapshot.hourlyRate r.baseSalary = .ok hourlyRate
      ∧ Overtime.compute r.overtimeHours hourlyRate snapshot.overtime
        = .ok o
      ∧ Held fixedPay ∧ r.baseSalary.toRat ≤ fixedPay.toRat
      ∧ fixedPay.toRat + total (o.lines.map (·.amount.ceil))
        ≤ 10 ^ 21 := by
  have hsalary := h.salary
  have hsalary' := h.salary_lt
  have hlt := h.earnings_lt
  have hfixed := h.fixed_lt
  have hpay := h.accepted.payable_allowances h.inLedger
  have hnonneg := hpay.nonneg
  have hmonth : 0 < snapshot.monthlyHours.toRat := by
    rw [toRat_monthlyHours]
    norm_num
  have hrate : 1 ≤ r.baseSalary.toRat / snapshot.monthlyHours.toRat := by
    rw [le_div_iff₀ hmonth, toRat_monthlyHours]
    linarith
  have hrate' : r.baseSalary.toRat / snapshot.monthlyHours.toRat
      ≤ 10 ^ 28 := by
    rw [div_le_iff₀ hmonth, toRat_monthlyHours]
    linarith
  obtain ⟨allowances, fixedPay, hallowances, hfixedPay, hvalue, hheld⟩ :=
    hpay.exists_add_sum (h.accepted.held_salary h.inLedger) (by linarith)
  obtain ⟨hourlyRate, o, hhourly, ho, htotal⟩ := Request.exists_overtime
    upToDouble_overtime h.worked hmonth hrate hrate' (by linarith)
  exact ⟨allowances, fixedPay, hourlyRate, o, hallowances, hfixedPay,
    hhourly, ho, hheld, by linarith, by linarith⟩

/-- A delay costs a twenty-sixth of the salary at most, and absence
nothing. -/
theorem exists_cost : ∃ dailyRate a,
    snapshot.dailyRate r.baseSalary = .ok dailyRate
      ∧ Adjustment.compute r.attendance dailyRate snapshot.attendance
        snapshot.dailyHours = .ok a
      ∧ a.delayPenalty.toRat ≤ r.baseSalary.toRat / 26 + 1 / 2
      ∧ a.absenceDeduction = .zero := by
  have hsalary := h.salary
  have hsalary' := h.salary_lt
  obtain ⟨dailyRate, hdaily, hnonneg, hnear⟩ := exists_div_near
    (a := r.baseSalary) (b := snapshot.workingDays) (by linarith)
    (by rw [toRat_workingDays]; norm_num)
    (by rw [toRat_workingDays]; linarith)
  rw [toRat_workingDays] at hnear
  have hescalation : |snapshot.attendance.severeEscalation.toRat|
      ≤ (2 : ℕ) := by
    decide +kernel
  have hrate : dailyRate.toRat ≤ (4 * 10 ^ 18 : ℕ) := by
    push_cast
    linarith
  have hday : 1 ≤ snapshot.dailyHours.toRat := by decide +kernel
  obtain ⟨a, ha, hpenalty, habsence⟩ := Adjustment.exists_compute_present
    proper_snapshot.attendance hescalation hnonneg hrate hday
    (by decide +kernel) h.absence_nonneg h.absence_paid (by decide)
    (by decide)
  exact ⟨dailyRate, a, hdaily, ha, hpenalty.trans hnear, habsence⟩

end OrdinaryMonth

-- ========================================================== the estimate

/-- An estimate with room in every sum, of a month in which a delay is
all that is deducted. -/
structure Ample {r : Request} (e : Estimate r snapshot) : Prop where
  held_fixedPay : Held e.fixedPay
  salary_le : r.baseSalary.toRat ≤ e.fixedPay.toRat
  earnings_le : e.fixedPay.toRat
    + total (e.overtime.lines.map (·.amount.ceil)) ≤ 10 ^ 21
  explicit_eq : e.explicit = .zero
  penalty_le : e.adjustment.delayPenalty.toRat
    ≤ r.baseSalary.toRat / 26 + 1 / 2
  absence_eq : e.adjustment.absenceDeduction = .zero
  covered : Covered e.bounds

/-- The two grosses of an estimate differ by one franc for each of four
lines at most. -/
theorem exists_grosses {fixedPay : Decimal} {o : Overtime}
    (hfixed : Held fixedPay)
    (hnonneg : ∀ l ∈ o.lines, 0 ≤ l.amount.toRat)
    (hcount : o.lines.length ≤ 4)
    (hle : fixedPay.toRat + total (o.lines.map (·.amount.ceil))
      ≤ 10 ^ 21) :
    ∃ overtimeFloor overtimeCeiling grossFloor grossCeiling,
      Decimal.sum (o.lines.map (·.amount.floor)) = .ok overtimeFloor
        ∧ Decimal.sum (o.lines.map (·.amount.ceil)) = .ok overtimeCeiling
        ∧ fixedPay.add overtimeFloor = .ok grossFloor
        ∧ fixedPay.add overtimeCeiling = .ok grossCeiling
        ∧ Held grossFloor ∧ Held grossCeiling
        ∧ fixedPay.toRat ≤ grossFloor.toRat
        ∧ grossFloor.toRat ≤ grossCeiling.toRat
        ∧ grossCeiling.toRat ≤ grossFloor.toRat + 4
        ∧ grossCeiling.toRat ≤ 10 ^ 21 := by
  have hfloors := payable_floor hnonneg
  have hspread := total_ceil_le o.lines (·.amount)
  have hless := total_map_le (l := o.lines)
    fun l _ => toRat_floor_le_ceil l.amount
  have hfloor := hfloors.nonneg
  have hcount' : (o.lines.length : ℚ) ≤ 4 := by exact_mod_cast hcount
  obtain ⟨overtimeFloor, grossFloor, hsum, hgross, hvalue, hheld⟩ :=
    hfloors.exists_add_sum hfixed (by linarith)
  obtain ⟨overtimeCeiling, grossCeiling, hsum', hgross', hvalue',
    hheld'⟩ := (payable_ceil hnonneg).exists_add_sum hfixed (by linarith)
  exact ⟨overtimeFloor, overtimeCeiling, grossFloor, grossCeiling, hsum,
    hsum', hgross, hgross', hheld, hheld', by linarith, by linarith,
    by linarith, by linarith⟩

/-- The deductions of an estimate are the penalty, rounded up. -/
theorem exists_deductions {a : Adjustment}
    (hnonneg : 0 ≤ a.delayPenalty.toRat)
    (hle : a.delayPenalty.toRat ≤ 10 ^ 20)
    (habsence : a.absenceDeduction = .zero) :
    ∃ penalized deductions,
      Decimal.zero.add a.delayPenalty.ceil = .ok penalized
        ∧ penalized.add a.absenceDeduction.ceil = .ok deductions
        ∧ Held deductions
        ∧ deductions.toRat ≤ a.delayPenalty.toRat + 1 := by
  have hceil := toRat_ceil_le_add_one a.delayPenalty
  have hnone : a.absenceDeduction.toRat = 0 := by
    rw [habsence, toRat_zero]
  have hnone' : a.absenceDeduction.ceil.toRat = 0 := by
    rw [toRat_ceil, hnone, Int.ceil_zero, Int.cast_zero]
  obtain ⟨penalized, hpenalized, hvalue, hheld⟩ := held_zero.exists_add
    (held_ceil hnonneg) (by rw [toRat_zero]; linarith)
  rw [toRat_zero, zero_add] at hvalue
  obtain ⟨deductions, hdeductions, hvalue', hheld'⟩ := hheld.exists_add
    (held_ceil hnone.ge) (by rw [hvalue, hnone']; linarith)
  exact ⟨penalized, deductions, hpenalized, hdeductions, hheld',
    by linarith⟩

/-- The estimate has bounds, and they are covered. -/
theorem OrdinaryMonth.exists_estimate {r : Request} {asOf : Date}
    (h : OrdinaryMonth r asOf) : ∃ e : Estimate r snapshot, Ample e := by
  have hsalary := h.salary
  have hsalary' := h.salary_lt
  obtain ⟨allowances, fixedPay, hourlyRate, o, hallowances, hfixedPay,
    hhourly, ho, hfixed, hle, hearned⟩ := h.exists_earned
  obtain ⟨dailyRate, a, hdaily, ha, hpenalty, habsence⟩ := h.exists_cost
  obtain ⟨overtimeFloor, overtimeCeiling, grossFloor, grossCeiling,
    hovertimeFloor, hovertimeCeiling, hgrossFloor, hgrossCeiling, hheldf,
    hheldc, hfloor, hspread, hspread', hlimit⟩ := exists_grosses hfixed
    (Overtime.amount_nonneg proper_snapshot.overtime ho)
    (Overtime.length_lines_le proper_snapshot.overtime ho) hearned
  obtain ⟨least⟩ := exists_taken hheldf.nonneg (by linarith)
  obtain ⟨most⟩ := exists_taken hheldc.nonneg hlimit
  obtain ⟨employeeFloor, hemployeeFloor, -, -⟩ :=
    least.exists_sum (fun _ => held_floor) toRat_floor_le_ceil
  obtain ⟨employeeCeiling, withholdings, hemployeeCeiling, hwithholdings,
    hheldw, hwithheld⟩ := most.exists_withholdings
  obtain ⟨penalized, deductions, hpenalized, hdeductions, hheldd,
    hdeducted⟩ := exists_deductions
    (Adjustment.compute_nonneg proper_snapshot.attendance ha).1
    (by linarith) habsence
  obtain ⟨taken, htaken, hvalue, -⟩ :=
    hheldd.exists_add hheldw (by linarith)
  have hnonneg := hheldw.nonneg
  refine ⟨{
    allowances, fixedPay, hourlyRate, overtime := o, overtimeFloor
    overtimeCeiling, grossFloor, grossCeiling
    least := least.contributions
    most := most.contributions
    employeeFloor, employeeCeiling
    taxable := grossCeiling
    assessed := most.tax
    dailyRate, adjustment := a, withholdings, explicit := .zero, penalized
    deductions
    allowances_ok := hallowances
    fixedPay_ok := hfixedPay
    hourlyRate_ok := hhourly
    overtime_ok := ho
    overtimeFloor_ok := hovertimeFloor
    overtimeCeiling_ok := hovertimeCeiling
    grossFloor_ok := hgrossFloor
    grossCeiling_ok := hgrossCeiling
    least_ok := least.contributions_ok
    most_ok := most.contributions_ok
    employeeFloor_ok := hemployeeFloor
    employeeCeiling_ok := hemployeeCeiling
    taxable_ok := rfl
    assessed_ok := most.tax_ok
    dailyRate_ok := hdaily
    adjustment_ok := ha
    withholdings_ok := hwithholdings
    explicit_ok := h.totalDeductions_eq
    penalized_ok := hpenalized
    deductions_ok := hdeductions }, ?_⟩
  exact {
    held_fixedPay := hfixed
    salary_le := hle
    earnings_le := hearned
    explicit_eq := rfl
    penalty_le := hpenalty
    absence_eq := habsence
    covered := {
      deductions_le := by
        show deductions.toRat ≤ grossFloor.toRat
        linarith
      total := ⟨taken, htaken, by
        show taken.toRat ≤ grossFloor.toRat
        linarith⟩ } }

-- ======================================================= the calculation

/-- The gross of the calculation, with what is taken of it. -/
theorem Ample.exists_stages {r : Request} {e : Estimate r snapshot}
    (h : Ample e) {rounding : Rounding} (hplaces : rounding.places ≤ 4) :
    ∃ st : Stages r snapshot rounding, st.exactAdjustment = e.adjustment
      ∧ Held st.gross ∧ Held st.withheld ∧ Held st.tax.tax
      ∧ e.fixedPay.toRat ≤ st.gross.toRat ∧ st.gross.toRat ≤ 10 ^ 21
      ∧ st.withheld.toRat ≤ 86 / 1000 * st.gross.toRat + 6
      ∧ st.tax.tax.toRat ≤ 43 / 100 * st.gross.toRat + 3 := by
  have hnonneg :=
    Overtime.amount_nonneg proper_snapshot.overtime e.overtime_ok
  have hpay := Overtime.payable_rounded hplaces hnonneg
  have hearned := h.earnings_le
  have hle := total_map_le (l := e.overtime.lines)
    fun l _ => rounding.round_le_ceil l.amount
  obtain ⟨total, gross, htotal, hgross, hvalue, hheld⟩ :=
    hpay.exists_add_sum h.held_fixedPay (by linarith)
  obtain ⟨overtime, hovertime, rfl⟩ := Overtime.exists_rounded htotal
  have hmore := hpay.nonneg
  obtain ⟨k⟩ := exists_taken hheld.nonneg (by linarith)
  obtain ⟨withheld, hwithheld, hheld', howed⟩ := k.exists_sum
    (fun _ => rounding.held_round hplaces) rounding.round_le_ceil
  let m : e.Midway rounding := {
    overtime, gross
    exactContributions := k.contributions
    withheld
    taxable := gross
    overtime_ok := hovertime
    gross_ok := hgross
    contributions_ok := k.contributions_ok
    withheld_ok := by
      unfold Contributions.employeeTotal Contributions.rounded
      rw [List.map_map]
      exact hwithheld
    taxable_ok := rfl }
  refine ⟨m.stages k.tax_ok, rfl, hheld, hheld',
    rounding.held_round hplaces k.tax_nonneg, ?_, k.gross_le, howed, ?_⟩
  · show e.fixedPay.toRat ≤ gross.toRat
    linarith
  · show (rounding.round k.tax.tax).toRat ≤ 43 / 100 * gross.toRat + 3
    linarith [k.tax_le, rounding.round_le_add_one k.tax.tax]

/-- The parts can be put together, and two fifths of the gross are
left. -/
theorem Ample.exists_settlement {r : Request} {e : Estimate r snapshot}
    (h : Ample e) (hsalary : 64223 ≤ r.baseSalary.toRat)
    {rounding : Rounding} (hplaces : rounding.places ≤ 4) :
    ∃ (st : Stages r snapshot rounding) (t : Settlement st),
      4 / 10 * st.gross.toRat ≤ t.net.toRat := by
  obtain ⟨st, hadjustment, hgross, hwithheld, htax, hfixed, hlimit, howed,
    htaxed⟩ := h.exists_stages hplaces
  have hle := h.salary_le
  have hpenalty := h.penalty_le
  have hround := rounding.round_le_add_one e.adjustment.delayPenalty
  obtain ⟨hnonneg, hnonneg'⟩ := Adjustment.compute_nonneg
    proper_snapshot.attendance e.adjustment_ok
  have hpenalty' : st.adjustment.delayPenalty
      = rounding.round e.adjustment.delayPenalty := by
    rw [Stages.adjustment, hadjustment]
    rfl
  have habsence' : st.adjustment.absenceDeduction
      = rounding.round e.adjustment.absenceDeduction := by
    rw [Stages.adjustment, hadjustment]
    rfl
  have hnone : (rounding.round e.adjustment.absenceDeduction).toRat
      = 0 := by
    rw [h.absence_eq, Rounding.toRat_round, toRat_zero, ← Int.cast_zero,
      Rounding.value_intCast]
  obtain ⟨t, hnet⟩ := st.exists_settlement e.explicit_ok
    (by rw [h.explicit_eq]; exact held_zero) hgross (by linarith) htax
    hwithheld
    (by rw [hpenalty']; exact rounding.held_round hplaces hnonneg)
    (by rw [habsence']; exact rounding.held_round hplaces hnonneg')
    (by rw [h.explicit_eq, hpenalty', habsence', hnone, toRat_zero]
        linarith)
  rw [h.explicit_eq, hpenalty', habsence', hnone, toRat_zero] at hnet
  exact ⟨st, t, by linarith⟩

-- ============================================================ the payslip

/-- The shipped rules are in force for the periods since 2024. -/
theorem snapshotFor_eq {period : Period} (h : .of 2024 1 ≤ period) :
    book.snapshotFor period = .ok snapshot := by
  refine RuleBook.snapshotOn_eq_ok.2
    ⟨List.mem_singleton_self _, ?_, fun s hs _ => ?_⟩
  · have hday : period.firstDay.day = 1 := rfl
    rcases h with h | ⟨hyear, h⟩
    · exact .inl h
    · refine .inr ⟨hyear, ?_⟩
      rcases Nat.lt_or_eq_of_le h with h | h
      · exact .inl h
      · exact .inr ⟨h, hday.ge⟩
  · exact .inl (List.mem_singleton.1 hs)

/-- The month of an ordinary employee is accepted and paid, and two
fifths of the gross are left. -/
theorem ordinary_month_paid (r : Request) (asOf : Date)
    (h : OrdinaryMonth r asOf) :
    book.snapshotFor r.period = .ok snapshot
      ∧ (∃ report, validate r snapshot asOf = .ok report
        ∧ report.valid = true)
      ∧ ∃ p, calculate r book asOf = .ok p
        ∧ 4 / 10 * p.grossSalary.toRat ≤ p.netSalary.toRat := by
  have hsnapshot := snapshotFor_eq h.period_ge
  obtain ⟨e, he⟩ := h.exists_estimate
  have hasked : e.explicit.toRat ≤ e.fixedPay.toRat := by
    rw [he.explicit_eq, toRat_zero]
    exact he.held_fixedPay.nonneg
  obtain ⟨report, hreport, hvalid⟩ :=
    exists_valid_report h.orderly e hasked he.covered
  obtain ⟨st, t, hnet⟩ := he.exists_settlement h.salary
    (show book.rounding.places ≤ 4 by decide)
  refine ⟨hsnapshot, ⟨report, hreport, hvalid⟩, t.payslip, ?_, hnet⟩
  unfold calculate
  rw [hsnapshot]
  exact (calculateWith_eq_ok proper_snapshot).2
    ⟨report, hreport, hvalid, st, t, rfl⟩

/-- A month of nights and of more holidays than are paid, with a severe
delay and days of paid leave. -/
def nurse : Request :=
  { employeeId := "N-12"
    period := .of 2024 6
    baseSalary := 185000.25
    regularHours := 152
    overtimeHours := { night := some 22.5, holiday := some 20 }
    allowances := .ofList [("housing", 40000), ("risk", 12500.5)]
    attendance :=
      { delayMinutes := 75, absenceDays := 2.5, paidAbsence := true } }

theorem ordinaryMonth_nurse :
    OrdinaryMonth nurse { year := 2024, month := 7, day := 1 } where
  named := by decide +kernel
  salary := by decide +kernel
  allowances := by decide +kernel
  no_deductions := rfl
  overtimeHours := by decide +kernel
  regularHours_nonneg := by decide +kernel
  regularHours_le := by decide +kernel
  regularHours_pos := by decide +kernel
  delay := by decide +kernel
  absence_nonneg := by decide +kernel
  absence_le := by decide +kernel
  absence_paid := .inl rfl
  period_ge := by decide +kernel
  period_le := by decide +kernel
  inLedger :=
    ⟨by decide +kernel, by decide +kernel, by decide +kernel⟩
  earnings_lt := by decide +kernel

/-- The nurse is paid. -/
theorem ordinary_month_paid_nurse :
    OrdinaryMonth nurse { year := 2024, month := 7, day := 1 }
      ∧ book.snapshotFor nurse.period = .ok snapshot
      ∧ (∃ report, validate nurse snapshot
          { year := 2024, month := 7, day := 1 } = .ok report
        ∧ report.valid = true)
      ∧ ∃ p, calculate nurse book { year := 2024, month := 7, day := 1 }
          = .ok p
        ∧ 4 / 10 * p.grossSalary.toRat ≤ p.netSalary.toRat :=
  ⟨ordinaryMonth_nurse, ordinary_month_paid nurse _ ordinaryMonth_nurse⟩

end Payroll.Senegal
