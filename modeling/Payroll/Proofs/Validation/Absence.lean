/-
An absence of a whole month. A day's pay is the salary divided by the
working days, so the pay of all of them is the salary again, and no
absence of working days alone can take more than the gross. Validation
holds it to that, up to how it rounds: the quotient is rounded, the
product with the days is too, and the bounds take the ceiling of that,
while the salary they compare it with is left as it is.

So a rate that was rounded up by the least bit can put the ceiling one
unit above a salary of whole units, and the month is refused. That is
the only way, and it needs the whole month and nothing paid on top of
the salary:

- a rate that was not rounded up leaves the days within the salary;
- a hundredth of a day that was worked is worth more than all rounding;
- a unit of pay on top makes up for the ceiling.
-/
import Payroll.Proofs.Attendance
import Payroll.Proofs.Validation.Breaches

namespace Payroll

open Decimal

variable {r : Request} {s : Snapshot} {asOf : Date} {report : Report}
  {found : List Finding}

-- ============================================================ the finding

theorem Report.hasError_iff {code : String} :
    report.hasError code = true ↔ ∃ field, (code, field) ∈ report.keys := by
  rw [hasError, List.any_eq_true]
  constructor
  · rintro ⟨i, hi, hcode⟩
    rw [beq_iff_eq] at hcode
    exact ⟨i.field, List.mem_map.2 ⟨i, hi, by rw [hcode]⟩⟩
  · rintro ⟨field, hmem⟩
    obtain ⟨i, hi, heq⟩ := List.mem_map.1 hmem
    injection heq with hcode
    exact ⟨i, hi, beq_iff_eq.2 hcode⟩

/-- Where the checks found nothing, deductions are reported if they
exceed the gross in an estimate. -/
theorem Late.deductions_iff {keys : List (String × String)}
    (h : Late r s keys) :
    (∃ field, ("DEDUCTIONS_EXCEED_GROSS", field) ∈ keys)
      ↔ ∃ e : Estimate r s, e.grossFloor.toRat < e.deductions.toRat := by
  have hbounds {b : NetBounds}
      (hb : NetBounds.estimate r s = .ok (some b)) (e : Estimate r s) :
      e.bounds = b := by
    have heq := e.estimate_eq.symm.trans hb
    injection heq with heq
    injection heq
  cases h with
  | unbounded hnone =>
      refine iff_of_false (by simp) ?_
      rintro ⟨e, -⟩
      cases e.estimate_eq.symm.trans hnone
  | covered hb hcovered =>
      refine iff_of_false (by simp) ?_
      rintro ⟨e, hlt⟩
      have hle := hcovered.deductions_le
      rw [← hbounds hb e] at hle
      exact absurd hlt (not_lt.2 hle)
  | deductions hb hlt =>
      refine iff_of_true ⟨"deductions", by simp⟩ ?_
      obtain ⟨e, rfl⟩ := Estimate.of_estimate hb
      exact ⟨e, hlt⟩
  | net hb hle =>
      refine iff_of_false (by simp) ?_
      rintro ⟨e, hlt⟩
      rw [← hbounds hb e] at hle
      exact absurd hlt (not_lt.2 hle)

/-- A request from which nothing is taken but unpaid absence. -/
structure Request.AbsentOnly (r : Request) : Prop where
  no_deductions : r.deductions.entries = []
  punctual : r.attendance.delayMinutes = 0
  unpaid : r.attendance.paidAbsence = false

namespace Estimate

variable (e : Estimate r s)

/-- What the absence costs in an estimate. -/
theorem deductions_absence (hr : r.AbsentOnly) : e.deductions.toRat
    = ⌈nearest (r.attendance.absenceDays.toRat * e.dailyRate.toRat)⌉ := by
  have hexplicit : e.explicit.toRat = 0 := by
    have hsum := e.explicit_ok
    unfold Request.totalDeductions Named.values at hsum
    rw [hr.no_deductions] at hsum
    injection hsum with hzero
    rw [← hzero, toRat_zero]
  have hx := Adjustment.computed e.adjustment_ok
  have hpenalty : e.adjustment.delayPenalty = .zero := by
    refine (Adjustment.compute_free e.adjustment_ok).1 ?_
    rw [hx.tier, Attendance.delayTier, hr.punctual]
    rfl
  have hcost := hx.deduction_ok
  unfold Adjustment.deduction at hcost
  rw [if_neg (by rw [hr.unpaid]; exact Bool.false_ne_true)] at hcost
  have hpenalized : e.penalized.toRat = 0 := by
    rw [toRat_add e.penalized_ok, hexplicit, hpenalty, toRat_ceil,
      toRat_zero, Int.ceil_zero, Int.cast_zero, add_zero, nearest_zero]
  rw [toRat_add e.deductions_ok, hpenalized, zero_add, nearest_toRat,
    toRat_ceil, toRat_mul hcost]

/-- The gross is no less than the salary. -/
theorem salary_le_grossFloor (hs : s.Proper) (hr : Accepted r) :
    r.baseSalary.toRat ≤ e.grossFloor.toRat := by
  have hallowances : 0 ≤ e.allowances.toRat :=
    toRat_sum_nonneg hr.allowances_nonneg e.allowances_ok
  have hovertime : 0 ≤ e.overtimeFloor.toRat := by
    have hlines := Overtime.amount_nonneg hs.overtime e.overtime_ok
    refine toRat_sum_nonneg (fun a ha => ?_) e.overtimeFloor_ok
    exact (payable_floor hlines a ha).nonneg
  calc r.baseSalary.toRat
      ≤ e.fixedPay.toRat := toRat_le_add_left hallowances e.fixedPay_ok
    _ ≤ e.grossFloor.toRat := toRat_le_add_left hovertime e.grossFloor_ok

end Estimate

/-- The error is the one inequality. -/
theorem absence_reported_iff (hr : r.AbsentOnly)
    (hfound : Validation.examine r s asOf = .ok found)
    (hfree : Harmless found) (h : validate r s asOf = .ok report) :
    report.hasError "DEDUCTIONS_EXCEED_GROSS" = true
      ↔ ∃ e : Estimate r s, e.grossFloor.toRat
        < ⌈nearest (r.attendance.absenceDays.toRat
          * e.dailyRate.toRat)⌉ := by
  obtain ⟨-, found', hfound', -, hlate⟩ := report_of_validate h
  cases hfound.symm.trans hfound'
  have hkeys := hlate (errorKeys_eq_nil_iff.2 hfree)
  rw [Report.hasError_iff, hkeys.deductions_iff]
  constructor
  · rintro ⟨e, hlt⟩
    rw [e.deductions_absence hr] at hlt
    exact ⟨e, hlt⟩
  · rintro ⟨e, hlt⟩
    rw [← e.deductions_absence hr] at hlt
    exact ⟨e, hlt⟩

-- ============================================================ the amounts

/-- No absence is longer than its month. -/
theorem absenceDays_le (hfound : Validation.examine r s asOf = .ok found)
    (hfree : Harmless found) : r.attendance.absenceDays.toRat ≤ 31 := by
  obtain ⟨-, fixedPay, explicit, -, -, -, hkeys⟩ :=
    Validation.errorKeys_examine hfound
  rw [errorKeys_eq_nil_iff.2 hfree] at hkeys
  have hkept := hkeys.symm
  rw [breaches, List.map_eq_nil_iff, List.filter_eq_nil_iff] at hkept
  have hperiod := hkept
    ⟨"ABSENCE_EXCEEDS_PERIOD", "attendance.absence_days",
      r.period.days < r.attendance.absenceDays.toRat⟩
    (List.mem_append_right _ (by simp [Rule.absence]))
  rw [decide_eq_true_iff, not_lt] at hperiod
  have hmonth : (r.period.days : ℚ) ≤ 31 := by
    exact_mod_cast r.period.days_le
  exact hperiod.trans hmonth

/-- What is no more than a whole amount stays so when it is rounded and
its ceiling is taken. -/
theorem ceil_nearest_le {v : ℚ} {n : ℤ} (hn : nearest n = n)
    (h : v ≤ n) : (⌈nearest v⌉ : ℚ) ≤ n := by
  have hle := nearest_mono h
  rw [hn] at hle
  exact_mod_cast Int.ceil_le.2 hle

section Rates

variable {salary days worked rate : ℚ}

/-- A daily rate that was not rounded up leaves the days within the
salary. -/
theorem cost_le_of_rate_le (hrate : 0 ≤ rate) (hdays : days ≤ worked)
    (hle : worked * rate ≤ salary) : days * rate ≤ salary :=
  (mul_le_mul_of_nonneg_right hdays hrate).trans hle

/-- However it was rounded, the days of a month cost less than a unit
more than their part of the salary. -/
theorem cost_le_add (hnonneg : 0 ≤ days) (hmonth : days ≤ 31)
    (hnear : |rate - salary / worked| ≤ 1 / (2 * 10 ^ 13)) :
    days * rate ≤ days * (salary / worked) + 1 / 10 ^ 11 := by
  have hrate : rate ≤ salary / worked + 1 / (2 * 10 ^ 13) := by
    linarith [(abs_le.1 hnear).2]
  have hcost := mul_le_mul_of_nonneg_left hrate hnonneg
  have hmoved : days * (1 / (2 * 10 ^ 13)) ≤ 31 * (1 / (2 * 10 ^ 13)) :=
    mul_le_mul_of_nonneg_right hmonth (by norm_num)
  rw [mul_add] at hcost
  linarith

/-- A hundredth of a day is worth more than what rounding adds. -/
theorem cost_le_of_worked (hone : 1 ≤ worked) (hsalary : 1 ≤ salary)
    (hnonneg : 0 ≤ days) (hmonth : days ≤ 31)
    (hworked : days + 1 / 100 ≤ worked)
    (hnear : |rate - salary / worked| ≤ 1 / (2 * 10 ^ 13)) :
    days * rate ≤ salary := by
  have hcost := cost_le_add hnonneg hmonth hnear
  have hpos : 0 < worked := by linarith
  have hday : 0 < salary / worked := div_pos (by linarith) hpos
  -- no month has so many days that a hundredth is not a part of them
  have hpart : worked / 6200 ≤ worked - days := by
    by_cases hlong : worked ≤ 62
    · linarith
    · linarith
  have hleft : salary / 6200 ≤ (worked - days) * (salary / worked) := by
    calc salary / 6200 = worked / 6200 * (salary / worked) := by
          field_simp
      _ ≤ (worked - days) * (salary / worked) :=
          mul_le_mul_of_nonneg_right hpart hday.le
  have hall : worked * (salary / worked) = salary :=
    mul_div_cancel₀ _ hpos.ne'
  rw [sub_mul, hall] at hleft
  linarith

/-- Any days within the working days cost less than a unit more than the
salary rounded up. -/
theorem ceil_cost_le (hpos : 0 < worked) (hdays : days ≤ worked)
    (hnonneg : 0 ≤ days) (hmonth : days ≤ 31) (hsalary : 0 < salary)
    (hle : salary ≤ 10 ^ 15)
    (hnear : |rate - salary / worked| ≤ 1 / (2 * 10 ^ 13)) :
    (⌈nearest (days * rate)⌉ : ℚ) ≤ ⌈salary⌉ + 1 := by
  have hcost := cost_le_add hnonneg hmonth hnear
  have hpart : days * (salary / worked) ≤ salary := by
    calc days * (salary / worked) ≤ worked * (salary / worked) :=
          mul_le_mul_of_nonneg_right hdays (div_pos hsalary hpos).le
      _ = salary := mul_div_cancel₀ _ hpos.ne'
  have hceil := Int.le_ceil salary
  have hceil' := Int.ceil_lt_add_one salary
  have hself : nearest ((⌈salary⌉ + 1 : ℤ) : ℚ)
      = ((⌈salary⌉ + 1 : ℤ) : ℚ) := by
    refine (inLedger_intCast _).nearest_eq ?_
    push_cast
    rw [abs_of_pos (by linarith)]
    linarith
  have hup : (⌈nearest (days * rate)⌉ : ℚ) ≤ ((⌈salary⌉ + 1 : ℤ) : ℚ) := by
    refine ceil_nearest_le hself ?_
    push_cast
    linarith
  rwa [Int.cast_add, Int.cast_one] at hup

end Rates

/-- The daily rate of a month is off by little. -/
theorem dailyRate_near {rate : Decimal} (hone : 1 ≤ s.workingDays.toRat)
    (hpos : 0 < r.baseSalary.toRat) (hle : r.baseSalary.toRat ≤ 10 ^ 15)
    (h : s.dailyRate r.baseSalary = .ok rate) :
    |rate.toRat - r.baseSalary.toRat / s.workingDays.toRat|
      ≤ 1 / (2 * 10 ^ 13) := by
  have hdays : 0 < s.workingDays.toRat := by linarith
  rw [toRat_div hdays.ne' h]
  refine abs_nearest_sub_le (by decide) ?_
  have hquotient := div_le_self hpos.le hone
  rw [abs_of_pos (div_pos hpos hdays), reach]
  linarith

-- ============================================================= the month

section Month

variable (hs : s.check = .ok ())
  (hfound : Validation.examine r s asOf = .ok found)
  (hfree : Harmless found) (hr : r.AbsentOnly)
  (h : validate r s asOf = .ok report)

include hs hfound hfree hr h

/-- A cost within a salary of whole units stays there when it is rounded
up, and the gross is no less than the salary. -/
theorem not_reported_of_cost_le (hsalary : Whole 0 r.baseSalary.toRat)
    (hcost : ∀ e : Estimate r s, r.attendance.absenceDays.toRat
      * e.dailyRate.toRat ≤ r.baseSalary.toRat) :
    report.hasError "DEDUCTIONS_EXCEED_GROSS" = false := by
  have hproper := (Snapshot.check_eq_ok.1 hs).proper
  have haccepted := (accepted_of_examine hfound hfree).1
  rw [← Bool.not_eq_true, absence_reported_iff hr hfound hfree h]
  rintro ⟨e, hlt⟩
  obtain ⟨k, hk⟩ := hsalary
  rw [pow_zero, mul_one] at hk
  have hself := nearest_toRat r.baseSalary
  have hgross := e.salary_le_grossFloor hproper haccepted
  have hcost := hcost e
  rw [hk] at hself hgross hcost
  exact absurd hlt (not_lt.2 ((ceil_nearest_le hself hcost).trans hgross))

omit hs hfound hfree hr h in
/-- An absence within the working days, from a request to which no
check objects and from which nothing else is taken, is reported to
exceed the gross where the rounded cost, rounded up, is more than the
least gross. It is not where the salary is a whole amount and the rate
was not rounded up or a hundredth of a day was worked, nor where a unit
is paid on top. -/
theorem absence_within_gross (hs : s.check = .ok ())
    (hfound : Validation.examine r s asOf = .ok found)
    (hfree : Harmless found) (hr : r.AbsentOnly)
    (hdays : r.attendance.absenceDays ≤ s.workingDays)
    (h : validate r s asOf = .ok report) :
    (report.hasError "DEDUCTIONS_EXCEED_GROSS" = true
        ↔ ∃ e : Estimate r s, e.grossFloor.toRat
          < ⌈nearest (r.attendance.absenceDays.toRat
            * e.dailyRate.toRat)⌉)
      ∧ (∀ rate, s.dailyRate r.baseSalary = .ok rate →
        Whole 0 r.baseSalary.toRat →
        s.workingDays.toRat * rate.toRat ≤ r.baseSalary.toRat →
        report.hasError "DEDUCTIONS_EXCEED_GROSS" = false)
      ∧ (1 ≤ s.workingDays.toRat → r.baseSalary.toRat ≤ 10 ^ 15 →
        Whole 0 r.baseSalary.toRat →
        r.attendance.absenceDays.toRat + 1 / 100
          ≤ s.workingDays.toRat →
        report.hasError "DEDUCTIONS_EXCEED_GROSS" = false)
      ∧ (1 ≤ s.workingDays.toRat → r.baseSalary.toRat ≤ 10 ^ 15 →
        (∀ e : Estimate r s,
          (⌈r.baseSalary.toRat⌉ : ℚ) + 1 ≤ e.grossFloor.toRat) →
        report.hasError "DEDUCTIONS_EXCEED_GROSS" = false) := by
  have hworking := (Snapshot.check_eq_ok.1 hs).workingDays_pos
  have hpos := (accepted_of_examine hfound hfree).1.salary_pos
  have hmonth := absenceDays_le hfound hfree
  have hnonneg (e : Estimate r s) :
      0 ≤ r.attendance.absenceDays.toRat :=
    (Adjustment.computed e.adjustment_ok).days_nonneg
  rw [le_iff_toRat] at hdays
  refine ⟨absence_reported_iff hr hfound hfree h, ?_, ?_, ?_⟩
  · intro rate hrate hsalary hle
    refine not_reported_of_cost_le hs hfound hfree hr h hsalary
      fun e => ?_
    cases hrate.symm.trans e.dailyRate_ok
    exact cost_le_of_rate_le
      (toRat_div_nonneg hpos.le hworking.le hrate) hdays hle
  · intro hone hle hsalary hworked
    refine not_reported_of_cost_le hs hfound hfree hr h hsalary
      fun e => ?_
    have hunit : 1 ≤ r.baseSalary.toRat := by
      obtain ⟨k, hk⟩ := hsalary
      rw [pow_zero, mul_one] at hk
      rw [hk] at hpos ⊢
      exact_mod_cast Int.add_one_le_of_lt (Int.cast_pos.1 hpos)
    exact cost_le_of_worked hone hunit (hnonneg e) hmonth hworked
      (dailyRate_near hone hpos hle e.dailyRate_ok)
  · intro hone hle htop
    rw [← Bool.not_eq_true, absence_reported_iff hr hfound hfree h]
    rintro ⟨e, hlt⟩
    have hcost := ceil_cost_le hworking hdays (hnonneg e) hmonth hpos hle
      (dailyRate_near hone hpos hle e.dailyRate_ok)
    exact absurd hlt (not_lt.2 (hcost.trans (htop e)))

end Month

namespace Senegal

/-- The rules without taxes, contributions and overtime. -/
def untaxed : Snapshot :=
  { snapshot with
    incomeTax :=
      { base := .gross
        annualized := false
        table := ⟨[⟨.zero, none, .zero, .zero⟩], by decide +kernel⟩ }
    contributions := []
    overtime := [] }

/-- An employee who missed every working day of March. -/
def absentee (salary : Decimal) : Request :=
  { employeeId := "E-1"
    period := .of 2024 3
    baseSalary := salary
    regularHours := 160
    attendance := { absenceDays := 26 } }

theorem check_untaxed : untaxed.check = .ok () := by
  decide +kernel

theorem absentOnly_absentee (salary : Decimal) :
    (absentee salary).AbsentOnly :=
  ⟨rfl, rfl, rfl⟩

theorem exists_examine_absentee (salary : Decimal)
    (h : (Validation.examine (absentee salary) untaxed
      { year := 2024, month := 3, day := 31 }).toOption.any
        (fun found => decide (Harmless found)) = true) :
    ∃ found, Validation.examine (absentee salary) untaxed
        { year := 2024, month := 3, day := 31 } = .ok found
      ∧ Harmless found := by
  obtain ⟨found, hfound, hfree⟩ := exists_ok_of_any h
  exact ⟨found, hfound, of_decide_eq_true hfree⟩

/-- On 300000 the rate is rounded down, and the month is accepted. -/
theorem absence_within_gross_absentee : ∃ report,
    validate (absentee (.of 300000 0)) untaxed
        { year := 2024, month := 3, day := 31 } = .ok report
      ∧ report.hasError "DEDUCTIONS_EXCEED_GROSS" = false := by
  obtain ⟨found, hfound, hfree⟩ :=
    exists_examine_absentee (.of 300000 0) (by decide +kernel)
  have hreport : (validate (absentee (.of 300000 0)) untaxed
      { year := 2024, month := 3, day := 31 }).toOption.any
        (fun _ => true) = true := by
    decide +kernel
  have hrate : (untaxed.dailyRate (.of 300000 0)).toOption.any
      (fun rate => decide (26 * rate.toRat ≤ 300000)) = true := by
    decide +kernel
  obtain ⟨report, hreport, -⟩ := exists_ok_of_any hreport
  obtain ⟨rate, hrate, hdown⟩ := exists_ok_of_any hrate
  have hdays : untaxed.workingDays.toRat = 26 := by decide +kernel
  have hsalary : (Decimal.of 300000 0).toRat = 300000 := by
    decide +kernel
  obtain ⟨-, hfits, -⟩ := absence_within_gross check_untaxed hfound hfree
    (absentOnly_absentee _) (by decide +kernel) hreport
  refine ⟨report, hreport, hfits rate hrate ?_ ?_⟩
  · decide +kernel
  · rw [hdays]
    exact (of_decide_eq_true hdown).trans hsalary.ge

/-- On 350000 the rate is rounded up, and the month is refused: it is
said to cost 350001. -/
theorem whole_month_refused : untaxed.check = .ok ()
    ∧ (∃ found, Validation.examine (absentee (.of 350000 0)) untaxed
        { year := 2024, month := 3, day := 31 } = .ok found
      ∧ Harmless found)
    ∧ (absentee (.of 350000 0)).AbsentOnly
    ∧ (absentee (.of 350000 0)).attendance.absenceDays
      ≤ untaxed.workingDays
    ∧ ∃ report, validate (absentee (.of 350000 0)) untaxed
        { year := 2024, month := 3, day := 31 } = .ok report
      ∧ report.hasError "DEDUCTIONS_EXCEED_GROSS" = true :=
  ⟨check_untaxed, exists_examine_absentee _ (by decide +kernel),
    absentOnly_absentee _, by decide +kernel,
    exists_ok_of_any (by decide +kernel)⟩

end Senegal

end Payroll
