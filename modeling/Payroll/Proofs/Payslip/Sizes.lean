/-
How large amounts can become. A request and a snapshot of ordinary size
are given bounds, generous ones, and each calculator passes a bound on
to its result: the gross stays below `10 ^ 21`, no share of it is
larger, all shares together stay below `10 ^ 26`, a tax below `10 ^ 28`
and what attendance costs too. An amount holds up to `2 ^ 96`, which is
more than `10 ^ 28`, so the sums that follow still fit.

The bounds are of no interest in themselves. They show that there is no
fault of arithmetic, and the lemmas say it in the same breath, for a
request of any size too, that none is a division by zero: divisors are
positive in every snapshot that passed its check.
-/
import Payroll.Proofs.Decimal.Size
import Payroll.Proofs.IncomeTax.Monotone
import Payroll.Proofs.Snapshot
import Payroll.Request

namespace Payroll

open Decimal

/-- A request of ordinary size. -/
structure Request.Sized (r : Request) : Prop where
  baseSalary : |r.baseSalary.toRat| ≤ 10 ^ 15
  allowances : ∀ a ∈ r.allowances.values, |a.toRat| ≤ 10 ^ 15
  allowances_length : r.allowances.values.length ≤ 10 ^ 5
  deductions : ∀ a ∈ r.deductions.values, |a.toRat| ≤ 10 ^ 15
  deductions_length : r.deductions.values.length ≤ 10 ^ 5
  overtimeHours : ∀ e ∈ r.overtimeHours.entries, |e.2.toRat| ≤ 1000
  absenceDays : |r.attendance.absenceDays.toRat| ≤ 1000

/-- A snapshot of ordinary size. -/
structure Snapshot.Sized (s : Snapshot) : Prop where
  monthlyHours : 1 ≤ s.monthlyHours.toRat
  workingDays : 1 ≤ s.workingDays.toRat
  dailyHours : 1 ≤ s.dailyHours.toRat
  multiplier : ∀ rule ∈ s.overtime, |rule.multiplier.toRat| ≤ 100
  escalation : |s.attendance.severeEscalation.toRat| ≤ 1000
  schemes : s.contributions.length ≤ 10 ^ 5
  fixedAmounts : ∀ b ∈ s.incomeTax.table.brackets,
    |b.fixedAmount.toRat| ≤ 10 ^ 27

variable {S : Prop}

-- =============================================================== requests

namespace Request

variable {r : Request}

theorem within_baseSalary (hr : S → r.Sized) :
    Within S (10 ^ 15) r.baseSalary :=
  fun h => by exact_mod_cast (hr h).baseSalary

theorem ends_totalAllowances (hr : S → r.Sized) :
    Ends (Fault.Excused S) (Within S (10 ^ 20)) r.totalAllowances := by
  refine ends_sum (m := 10 ^ 15)
    (fun a ha h => by exact_mod_cast (hr h).allowances a ha) fun h => ?_
  have := (hr h).allowances_length
  omega

theorem ends_totalDeductions (hr : S → r.Sized) :
    Ends (Fault.Excused S) (Within S (10 ^ 20)) r.totalDeductions := by
  refine ends_sum (m := 10 ^ 15)
    (fun a ha h => by exact_mod_cast (hr h).deductions a ha) fun h => ?_
  have := (hr h).deductions_length
  omega

end Request

-- ================================================================== rates

namespace Snapshot

variable {s : Snapshot}

/-- The divisors of a snapshot that passed its check. -/
structure Divisible (s : Snapshot) : Prop where
  monthlyHours_pos : 0 < s.monthlyHours.toRat
  workingDays_pos : 0 < s.workingDays.toRat
  dailyHours_pos : 0 < s.dailyHours.toRat
  dailyHours_le : s.dailyHours.toRat ≤ 24

theorem divisible_of_check (h : s.check = .ok ()) : s.Divisible := by
  have hs := check_eq_ok.1 h
  exact ⟨hs.monthlyHours_pos, hs.workingDays_pos, hs.dailyHours_pos,
    hs.dailyHours_le⟩

theorem ends_hourlyRate (hd : s.Divisible) (hs : S → s.Sized)
    {salary : Decimal} (h : Within S (10 ^ 15) salary) :
    Ends (Fault.Excused S) (Within S (10 ^ 15)) (s.hourlyRate salary) :=
  h.div hd.monthlyHours_pos fun hS => (hs hS).monthlyHours

theorem ends_dailyRate (hd : s.Divisible) (hs : S → s.Sized)
    {salary : Decimal} (h : Within S (10 ^ 15) salary) :
    Ends (Fault.Excused S) (Within S (10 ^ 15)) (s.dailyRate salary) :=
  h.div hd.workingDays_pos fun hS => (hs hS).workingDays

end Snapshot

-- =============================================================== overtime

namespace Overtime

variable {rules : List OvertimeRule} {hourlyRate : Decimal}

theorem ends_pay {rule : OvertimeRule} (hrule : rule.Proper)
    {hours : Decimal} (h : Within S 1000 hours) :
    Ends (Fault.Excused S) (fun paid => Within S 1000 paid.1)
      (pay rule hours) := by
  unfold pay
  split
  · rename_i cap hcap
    split
    · rename_i hlt
      have hnonneg := hrule.cap_nonneg cap hcap
      rw [lt_iff_toRat] at hlt
      have hcap' : Within S 1000 cap := by
        intro hS
        rw [abs_of_nonneg hnonneg]
        exact hlt.le.trans ((le_abs_self _).trans (h hS))
      exact (h.sub hcap' (k := 2000)).bind fun _ _ => hcap'
    · exact h
  · exact h

/-- No line is larger than a thousand hours at a hundredfold rate. -/
theorem ends_line (hrules : ∀ rule ∈ rules, rule.Proper)
    (hmultiplier : S → ∀ rule ∈ rules, |rule.multiplier.toRat| ≤ 100)
    (hrate : Within S (10 ^ 15) hourlyRate) (c : Category)
    {hours : Decimal} (h : Within S 1000 hours) :
    Ends (Failure.Excused S)
      (fun o => ∀ l ∈ o, Within S (10 ^ 20) l.1.amount)
      (line hourlyRate rules c hours) := by
  unfold line
  split
  · trivial
  · split
    · exact fun _ => nofun
    · split
      · trivial
      · rename_i rule hrule
        have hmem := OvertimeRule.find?_mem hrule
        have hfactor : Within S 100 rule.multiplier :=
          fun hS => by exact_mod_cast hmultiplier hS rule hmem
        refine (ends_pay (hrules rule hmem) h).toFailure.bind
          fun paid hpaid => ?_
        refine (hpaid.mul hrate (k := 10 ^ 18)).toFailure.bind
          fun base hbase => ?_
        refine (hbase.mul hfactor (k := 10 ^ 20)).toFailure.bind
          fun amount hamount => ?_
        rintro _ ⟨⟩
        exact hamount

/-- Overtime of ordinary size: lines in reporting order, which are four
at most, and none of them large. -/
structure Sized (S : Prop) (o : Overtime) : Prop where
  categories : (o.lines.map (·.category)).Sublist Category.all
  amount : ∀ l ∈ o.lines, Within S (10 ^ 20) l.amount

theorem Sized.length_le {o : Overtime} (h : Sized S o) :
    o.lines.length ≤ 4 := by
  have hle := h.categories.length_le
  rwa [List.length_map] at hle

theorem ends_compute (hrules : ∀ rule ∈ rules, rule.Proper)
    (hmultiplier : S → ∀ rule ∈ rules, |rule.multiplier.toRat| ≤ 100)
    (hrate : Within S (10 ^ 15) hourlyRate) {hours : ByCategory Decimal}
    (h : ∀ e ∈ hours.entries, Within S 1000 e.2) :
    Ends (Failure.Excused S) (Sized S) (compute hours hourlyRate rules) := by
  suffices hamounts : Ends (Failure.Excused S)
      (fun o => ∀ l ∈ o.lines, Within S (10 ^ 20) l.amount)
      (compute hours hourlyRate rules) from
    hamounts.imp fun _ hok hamount =>
      ⟨categories_sublist hrules hok, hamount⟩
  unfold compute
  split
  · trivial
  · refine (Ends.mapM fun e he => ends_line hrules hmultiplier hrate e.1
      (h e he)).bind fun found hfound => ?_
    have hlength : ((found.filterMap id).map (·.1)).length ≤ 4 := by
      have hentries := hours.map_entries_sublist.length_le
      rw [List.length_map] at hentries ⊢
      have hsome := List.length_filterMap_le id found
      rw [hfound.1] at hsome
      exact hsome.trans hentries
    have hamount : ∀ l ∈ (found.filterMap id).map (·.1),
        Within S (10 ^ 20) l.amount := by
      intro l hl
      obtain ⟨l', hl', rfl⟩ := List.mem_map.1 hl
      obtain ⟨o, ho, hsome⟩ := List.mem_filterMap.1 hl'
      exact hfound.2 o ho l' hsome
    have htotal : Ends (Fault.Excused S) (Within S (4 * 10 ^ 20))
        (Decimal.sum (((found.filterMap id).map (·.1)).map (·.amount))) := by
      refine Decimal.ends_sum (m := 10 ^ 20) (fun a ha => ?_) fun _ => ?_
      · obtain ⟨l, hl, rfl⟩ := List.mem_map.1 ha
        exact hamount l hl
      · rw [List.length_map]
        omega
    exact htotal.toFailure.bind fun _ _ => hamount

/-- The sum of some amount of each line. -/
theorem Sized.ends_sum {o : Overtime} (h : Sized S o)
    {f : OvertimeLine → Decimal}
    (hf : ∀ l ∈ o.lines, Within S (10 ^ 20) (f l)) :
    Ends (Fault.Excused S) (Within S (4 * 10 ^ 20))
      (Decimal.sum (o.lines.map f)) := by
  have hlength := h.length_le
  refine Decimal.ends_sum (m := 10 ^ 20) (fun a ha => ?_) fun _ => ?_
  · obtain ⟨l, hl, rfl⟩ := List.mem_map.1 ha
    exact hf l hl
  · rw [List.length_map]
    omega

theorem Sized.ends_rounded {o : Overtime} (h : Sized S o)
    (rounding : Rounding) :
    Ends (Fault.Excused S)
      (fun o' => Sized S o' ∧ Within S (4 * 10 ^ 20) o'.total)
      (o.rounded rounding) := by
  have hrounded : ∀ l ∈ o.lines,
      Within S (10 ^ 20) (rounding.round l.amount) :=
    fun l hl => (h.amount l hl).round rounding
  unfold rounded
  simp only [List.map_map]
  refine (h.ends_sum hrounded).bind fun total htotal =>
    ⟨⟨?_, fun l hl => ?_⟩, htotal⟩
  · rw [List.map_map]
    exact h.categories
  · obtain ⟨l', hl', rfl⟩ := List.mem_map.1 hl
    exact hrounded l' hl'

/-- The amounts by category, which are the lines again. -/
theorem Sized.ends_values {o : Overtime} (h : Sized S o) :
    Ends (Fault.Excused S) (Within S (4 * 10 ^ 20))
      (Decimal.sum o.amountByCategory.values) := by
  rw [values_amountByCategory h.categories]
  exact h.ends_sum h.amount

end Overtime

-- ========================================================== contributions

namespace Contributions

variable {rates : List ContributionRate} {gross : Decimal}

theorem ends_line {r : ContributionRate} (hr : r.Proper)
    (hnonneg : 0 ≤ gross.toRat) (h : Within S (10 ^ 21) gross) :
    Ends (Fault.Excused S) (fun l => Within S (10 ^ 21) l.employeeAmount)
      (r.line gross) := by
  have hbase : Within S (10 ^ 21) (r.base gross) := by
    intro hS
    rw [ContributionRate.toRat_base,
      abs_of_nonneg (ContributionRate.capped_nonneg hr hnonneg)]
    exact (r.capped_le gross.toRat).trans ((le_abs_self _).trans (h hS))
  have hemployee : Within S 1 r.employeeRate := by
    intro
    rw [abs_of_nonneg hr.employee_nonneg]
    exact_mod_cast hr.employee_le_one
  have hemployer : Within S 1 r.employerRate := by
    intro
    rw [abs_of_nonneg hr.employer_nonneg]
    exact_mod_cast hr.employer_le_one
  unfold ContributionRate.line
  refine (hbase.mul hemployee (k := 10 ^ 21)).bind fun _ hshare => ?_
  exact (hbase.mul hemployer (k := 10 ^ 21)).bind fun _ _ => hshare

/-- Contributions of ordinary size: no share larger than the gross. -/
structure Sized (S : Prop) (c : Contributions) : Prop where
  length_le : S → c.lines.length ≤ 10 ^ 5
  employee : ∀ l ∈ c.lines, Within S (10 ^ 21) l.employeeAmount

theorem ends_compute (hrates : ∀ r ∈ rates, r.Proper)
    (hlength : S → rates.length ≤ 10 ^ 5) (h : Within S (10 ^ 21) gross) :
    Ends (Failure.Excused S) (Sized S) (compute gross rates) := by
  unfold compute
  split
  · trivial
  · rename_i hnonneg
    rw [lt_iff_toRat, toRat_zero, not_lt] at hnonneg
    refine (Ends.mapM fun r hr =>
      (ends_line (hrates r hr) hnonneg h).toFailure).bind
        fun lines hlines => ⟨?_, hlines.2⟩
    show S → lines.length ≤ _
    rwa [hlines.1]

/-- The sum of some part of each employee's share. -/
theorem Sized.ends_sum {c : Contributions} (h : Sized S c)
    {f : Decimal → Decimal}
    (hf : ∀ a, Within S (10 ^ 21) a → Within S (10 ^ 21) (f a)) :
    Ends (Fault.Excused S) (Within S (10 ^ 26))
      (Decimal.sum (c.lines.map fun l => f l.employeeAmount)) := by
  refine Decimal.ends_sum (m := 10 ^ 21) (fun a ha => ?_) fun hS => ?_
  · obtain ⟨l, hl, rfl⟩ := List.mem_map.1 ha
    exact hf _ (h.employee l hl)
  · have := h.length_le hS
    rw [List.length_map]
    omega

theorem Sized.ends_employeeTotal {c : Contributions} (h : Sized S c)
    (rounding : Rounding) :
    Ends (Fault.Excused S) (Within S (10 ^ 26))
      (c.rounded rounding).employeeTotal := by
  unfold employeeTotal rounded
  simp only [List.map_map]
  exact h.ends_sum fun _ ha => ha.round rounding

end Contributions

-- ============================================================== income tax

namespace BracketTable

variable (t : BracketTable)

/-- A tax is no larger than the fixed amount of its bracket and the
income. -/
theorem ends_tax
    (hfixed : S → ∀ b ∈ t.brackets, |b.fixedAmount.toRat| ≤ 10 ^ 27)
    {income : Decimal} (h : Within S (3 * 10 ^ 27) income) :
    Ends (Failure.Excused S) (Within S (4 * 10 ^ 27)) (t.tax income) := by
  by_cases hneg : income < .zero
  · rw [tax, if_pos hneg]
    trivial
  · rw [lt_iff_toRat, toRat_zero, not_lt] at hneg
    rw [tax_eq_closedForm t hneg]
    refine Ends.toFailure ?_
    have hmem := t.bracketOf_mem income
    generalize t.bracketOf income = b at hmem
    have hfixed' : Within S (10 ^ 27) b.fixedAmount :=
      fun hS => by exact_mod_cast hfixed hS b hmem
    have hrate : Within S 1 b.rate := by
      intro
      rw [abs_of_nonneg (t.proper b hmem).rate_nonneg]
      exact_mod_cast (t.proper b hmem).rate_le_one
    unfold closedForm
    split
    · exact hfixed'.mono (by decide)
    · rename_i hlt
      rw [le_iff_toRat, not_le] at hlt
      have hmin := t.minIncome_nonneg b hmem
      -- the difference of two amounts that are not negative
      have hwidth : Ends (Fault.Excused S) (Within S (3 * 10 ^ 27))
          (income.sub b.minIncome) := by
        refine (sub?_rounds income b.minIncome).ends (by decide)
          (fun hS => ?_) fun _ => by decide
        rw [abs_of_pos (sub_pos.2 hlt)]
        linarith [le_abs_self income.toRat, h hS]
      refine (hwidth.bind fun width hw =>
        hw.mul hrate (k := 3 * 10 ^ 27)).bind fun slice hslice => ?_
      exact hfixed'.add hslice

end BracketTable

namespace TaxSchedule

variable (s : TaxSchedule)

theorem ends_yearly {income : Decimal} (h : Within S (2 * 10 ^ 26) income) :
    Ends (Failure.Excused S) (Within S (3 * 10 ^ 27)) (s.yearly income) := by
  by_cases hyear : s.annualized = true
  · have hmonths : Within S 12 months := by
      intro
      rw [toRat_months]
      norm_num
    have hproduct := mem_of_ends (h.mul hmonths (k := 3 * 10 ^ 27))
    rw [yearly, if_pos hyear]
    split
    · rename_i annual hannual
      exact hproduct annual hannual
    · trivial
  · rw [yearly, if_neg hyear]
    exact h.mono (by decide)

theorem ends_monthly {due : Decimal} (h : Within S (4 * 10 ^ 27) due) :
    Ends (Failure.Excused S) (Within S (4 * 10 ^ 27)) (s.monthly due) := by
  unfold monthly
  split
  · exact (h.div months_pos fun _ => by
      rw [toRat_months]
      norm_num).toFailure
  · exact h

theorem ends_assess
    (hfixed : S → ∀ b ∈ s.table.brackets, |b.fixedAmount.toRat| ≤ 10 ^ 27)
    {income : Decimal} (h : Within S (2 * 10 ^ 26) income) :
    Ends (Failure.Excused S) (fun t => Within S (4 * 10 ^ 27) t.tax)
      (s.assess income) := by
  rw [assess_eq]
  refine (s.ends_yearly h).bind fun bracketIncome hincome => ?_
  refine (s.table.ends_tax hfixed hincome).bind fun due hdue => ?_
  exact (s.ends_monthly hdue).bind fun tax htax => htax

end TaxSchedule

theorem TaxBase.ends_taxableIncome (base : TaxBase) {gross withheld : Decimal}
    (hgross : Within S (10 ^ 21) gross)
    (hwithheld : Within S (10 ^ 26) withheld) :
    Ends (Fault.Excused S) (Within S (2 * 10 ^ 26))
      (base.taxableIncome gross withheld) := by
  cases base with
  | gross => exact hgross.mono (by decide)
  | grossLessEmployeeContributions => exact hgross.sub hwithheld

-- ============================================================== attendance

namespace Adjustment

variable {dailyRate dayHours : Decimal}

/-- A day that is not empty has minutes to divide by. -/
theorem ends_proportional {m : ℕ} (minutes : UInt32)
    (hrate : Within S m dailyRate) (hday : 0 < dayHours.toRat)
    (hday' : dayHours.toRat ≤ 24) (hone : S → 1 ≤ dayHours.toRat)
    (hlt : m * (5 * 10 ^ 9) < limit := by decide) :
    Ends (Fault.Excused S) (Within S (m * (5 * 10 ^ 9)))
      (proportional minutes dailyRate dayHours) := by
  obtain ⟨dayMinutes, hmul, -⟩ :=
    (mul?_rounds dayHours (.ofNat 60)).exists_ok
      (by
        rw [InRange, toRat_sixty, abs_of_pos (by positivity), reach]
        linarith) .multiplicationOverflow
  have hle : dayHours.toRat ≤ dayMinutes.toRat :=
    hours_le_minutes hday.le hmul
  have hminutes : Within S (5 * 10 ^ 9) (.ofUInt32 minutes) := by
    intro
    have hlt := minutes.toNat_lt
    rw [toRat_ofUInt32, abs_of_nonneg (Nat.cast_nonneg _)]
    exact_mod_cast (by omega : minutes.toNat ≤ 5 * 10 ^ 9)
  unfold proportional
  rw [show dayHours.mul (.ofNat 60) = .ok dayMinutes from hmul, ok_bind]
  refine (hrate.mul hminutes le_rfl hlt).bind fun scaled h => ?_
  exact h.div (hday.trans_le hle) (fun hS => (hone hS).trans hle) hlt

theorem ends_penalty {policy : AttendancePolicy} (hpolicy : policy.Proper)
    {m k n : ℕ} (hescalation : S → |policy.severeEscalation.toRat| ≤ k)
    (tier : DelayTier) (hnonneg : 0 ≤ dailyRate.toRat) {share : Decimal}
    (hrate : Within S n dailyRate) (hshare : Within S m share)
    (hmn : m ≤ n := by decide) (hmk : m * k ≤ n := by decide)
    (hlt : n < limit := by decide) :
    Ends (Fault.Excused S) (Within S n)
      (penalty policy tier dailyRate share) := by
  cases tier with
  | onTime => exact within_zero
  | minor =>
      intro hS
      rw [toRat_min,
        abs_of_nonneg (le_min hpolicy.minor_nonneg hnonneg)]
      exact (min_le_right _ _).trans ((le_abs_self _).trans (hrate hS))
  | moderate => exact (hshare.mono hmn).min hrate
  | severe =>
      exact (hshare.mul hescalation hmk hlt).bind
        fun escalated h => h.min hrate

/-- Without unpaid absence attendance costs a day's pay at most. -/
theorem exists_compute_present {m k : ℕ} {a : Attendance}
    {policy : AttendancePolicy} (hpolicy : policy.Proper)
    (hescalation : |policy.severeEscalation.toRat| ≤ k)
    (hnonneg : 0 ≤ dailyRate.toRat) (hrate : dailyRate.toRat ≤ m)
    (hone : 1 ≤ dayHours.toRat) (hday : dayHours.toRat ≤ 24)
    (hdays : 0 ≤ a.absenceDays.toRat)
    (hpaid : a.paidAbsence = true ∨ a.absenceDays.toRat = 0)
    (hk : 1 ≤ k) (hlt : m * (5 * 10 ^ 9) * k < limit) :
    ∃ adjustment, compute a dailyRate policy dayHours = .ok adjustment
      ∧ adjustment.delayPenalty.toRat ≤ dailyRate.toRat
      ∧ adjustment.absenceDeduction = .zero := by
  have hshare := Nat.le_mul_of_pos_right (m * (5 * 10 ^ 9)) hk
  have hrate' : Within True m dailyRate := by
    intro
    rwa [abs_of_nonneg hnonneg]
  obtain ⟨share, hproportional, hsize⟩ :=
    (ends_proportional (S := True) a.delayMinutes hrate' (by linarith)
      hday (fun _ => hone) (hshare.trans_lt hlt)).exists_ok
  obtain ⟨p, hp, -⟩ := (ends_penalty hpolicy (fun _ => hescalation)
    a.delayTier hnonneg (hrate'.mono (by omega)) hsize hshare le_rfl
    hlt).exists_ok
  rw [compute_unchecked hnonneg hdays (by linarith)]
  simp only [hproportional, hp, deduction_free hpaid, liftM_ok, ok_bind]
  exact ⟨_, rfl, penalty_le hnonneg hp, rfl⟩

/-- An adjustment of ordinary size. -/
structure Sized (S : Prop) (a : Adjustment) : Prop where
  delayPenalty : Within S (5 * 10 ^ 27) a.delayPenalty
  absenceDeduction : Within S (10 ^ 18) a.absenceDeduction

theorem ends_compute {a : Attendance} {policy : AttendancePolicy}
    (hpolicy : policy.Proper)
    (hescalation : S → |policy.severeEscalation.toRat| ≤ 1000)
    (hdays : S → |a.absenceDays.toRat| ≤ 1000)
    (hrate : Within S (10 ^ 15) dailyRate) (hday : dayHours.toRat ≤ 24)
    (hone : S → 1 ≤ dayHours.toRat) :
    Ends (Failure.Excused S) (Sized S)
      (compute a dailyRate policy dayHours) := by
  unfold compute
  split
  · trivial
  · rename_i hnonneg
    split
    · trivial
    · split
      · trivial
      · rename_i hpos
        rw [lt_iff_toRat, toRat_zero, not_lt] at hnonneg
        rw [le_iff_toRat, toRat_zero, not_le] at hpos
        have hdays' : Within S 1000 a.absenceDays :=
          fun hS => by exact_mod_cast hdays hS
        refine (ends_proportional a.delayMinutes hrate hpos hday
          hone).toFailure.bind fun share hshare => ?_
        refine (ends_penalty (k := 1000) (n := 5 * 10 ^ 27) hpolicy
          (fun hS => by exact_mod_cast hescalation hS) a.delayTier hnonneg
          (hrate.mono (by decide)) hshare).toFailure.bind fun p hp => ?_
        have hdeduction : Ends (Fault.Excused S) (Within S (10 ^ 18))
            (deduction a dailyRate) := by
          unfold deduction
          split
          · exact within_zero
          · exact hdays'.mul hrate
        exact hdeduction.toFailure.bind fun d hd => ⟨hp, hd⟩

theorem Sized.rounded {a : Adjustment} (h : Sized S a)
    (rounding : Rounding) : Sized S (a.rounded rounding) :=
  ⟨h.delayPenalty.round rounding, h.absenceDeduction.round rounding⟩

theorem Sized.ends_total {a : Adjustment} (h : Sized S a) :
    Ends (Fault.Excused S) (Within S (6 * 10 ^ 27)) a.total :=
  h.delayPenalty.add h.absenceDeduction

end Adjustment

end Payroll
