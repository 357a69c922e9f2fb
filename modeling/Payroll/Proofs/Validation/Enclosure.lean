/-
The bounds enclose the payslip. Whatever request the bounds exist for,
valid or not, and to however many places the ledger rounds: the gross is
not below its bound, and what is withheld and what is deducted are not
above theirs.

`Outset` holds the amounts that the calculation comes to before the tax
is asked for, which may refuse the taxable income. They exist wherever
the bounds do, and there is one way to them.

# The argument

A sum of rounded lines lies between the sums of their floors and of
their ceilings, which the estimate has formed, so it exists and is on
the safe side of both (`Between`). This goes through gross,
contributions and taxable income and needs no amount to be exact. Signs
matter in one place alone: the calculators refuse a gross below zero, so
the shares of it are not negative.

Only with the withholdings and the deductions a bound is a sum of its
own. The withholdings add whole amounts, which is exact. The deductions
add whole amounts to what the request asks to deduct; that sum is exact
where the amounts have four places and the bound is small, even if the
amounts asked for cancel each other out on the way.
-/
import Payroll.Proofs.Decimal.Between
import Payroll.Proofs.IncomeTax.Monotone
import Payroll.Proofs.Payslip.Stages
import Payroll.Proofs.Validation.Estimate
import Payroll.Rules.Senegal

namespace Payroll

open Decimal

variable {r : Request} {s : Snapshot} {rounding : Rounding}

-- ============================================================= the outset

/-- The amounts that a calculation comes to whether or not the tax
accepts the taxable income. -/
structure Outset (r : Request) (s : Snapshot) (rounding : Rounding) where
  hourlyRate : Decimal
  exactOvertime : Overtime
  overtime : Overtime
  allowances : Decimal
  fixedPay : Decimal
  gross : Decimal
  exactContributions : Contributions
  withheld : Decimal
  taxable : Decimal
  dailyRate : Decimal
  exactAdjustment : Adjustment
  explicit : Decimal
  hourlyRate_ok : s.hourlyRate r.baseSalary = .ok hourlyRate
  exactOvertime_ok : Overtime.compute r.overtimeHours hourlyRate s.overtime
    = .ok exactOvertime
  overtime_ok : exactOvertime.rounded rounding = .ok overtime
  allowances_ok : r.totalAllowances = .ok allowances
  fixedPay_ok : r.baseSalary.add allowances = .ok fixedPay
  gross_ok : fixedPay.add overtime.total = .ok gross
  contributions_ok : Contributions.compute gross s.contributions
    = .ok exactContributions
  withheld_ok : (exactContributions.rounded rounding).employeeTotal
    = .ok withheld
  taxable_ok : s.incomeTax.base.taxableIncome gross withheld = .ok taxable
  dailyRate_ok : s.dailyRate r.baseSalary = .ok dailyRate
  adjustment_ok : Adjustment.compute r.attendance dailyRate s.attendance
    s.dailyHours = .ok exactAdjustment
  explicit_ok : r.totalDeductions = .ok explicit

namespace Outset

/-- The employee's shares, rounded to the ledger. -/
def shares (o : Outset r s rounding) : List Decimal :=
  (o.exactContributions.rounded rounding).lines.map (·.employeeAmount)

def delayPenalty (o : Outset r s rounding) : Decimal :=
  rounding.round o.exactAdjustment.delayPenalty

def absenceDeduction (o : Outset r s rounding) : Decimal :=
  rounding.round o.exactAdjustment.absenceDeduction

/-- Each amount is computed from those before it, so there is one way to
all of them. -/
theorem unique (o o' : Outset r s rounding) : o = o' := by
  obtain ⟨_, _, _, _, _, _, _, _, _, _, _, _, hourly, exactOvertime,
    overtime, allowances, fixedPay, gross, contributions, withheld, taxable,
    daily, adjustment, explicit⟩ := o
  obtain ⟨_, _, _, _, _, _, _, _, _, _, _, _, hourly', exactOvertime',
    overtime', allowances', fixedPay', gross', contributions', withheld',
    taxable', daily', adjustment', explicit'⟩ := o'
  cases hourly.symm.trans hourly'
  cases exactOvertime.symm.trans exactOvertime'
  cases overtime.symm.trans overtime'
  cases allowances.symm.trans allowances'
  cases fixedPay.symm.trans fixedPay'
  cases gross.symm.trans gross'
  cases contributions.symm.trans contributions'
  cases withheld.symm.trans withheld'
  cases taxable.symm.trans taxable'
  cases daily.symm.trans daily'
  cases adjustment.symm.trans adjustment'
  cases explicit.symm.trans explicit'
  rfl

/-- The outset of a calculation that was settled. -/
def ofSettlement (st : Stages r s rounding) (t : Settlement st) :
    Outset r s rounding where
  hourlyRate := st.hourlyRate
  exactOvertime := st.exactOvertime
  overtime := st.overtime
  allowances := st.allowances
  fixedPay := st.fixedPay
  gross := st.gross
  exactContributions := st.exactContributions
  withheld := st.withheld
  taxable := st.taxable
  dailyRate := st.dailyRate
  exactAdjustment := st.exactAdjustment
  explicit := t.explicit
  hourlyRate_ok := st.hourlyRate_ok
  exactOvertime_ok := st.exactOvertime_ok
  overtime_ok := st.overtime_ok
  allowances_ok := st.allowances_ok
  fixedPay_ok := st.fixedPay_ok
  gross_ok := st.gross_ok
  contributions_ok := st.contributions_ok
  withheld_ok := st.withheld_ok
  taxable_ok := st.taxable_ok
  dailyRate_ok := st.dailyRate_ok
  adjustment_ok := st.adjustment_ok
  explicit_ok := t.explicit_ok

/-- Amounts on the safe side of some bounds. What is withheld is meant
both as the calculation adds it up and as the exact total of the
shares, and so is what is deducted. -/
structure Within (o : Outset r s rounding) (b : NetBounds) : Prop where
  gross : b.gross.toRat ≤ o.gross.toRat
  withheld : ∀ t, s.incomeTax.assess o.taxable = .ok t →
    (rounding.round t.tax).toRat + o.withheld.toRat ≤ b.withholdings.toRat
  shares : ∀ t, s.incomeTax.assess o.taxable = .ok t →
    (rounding.round t.tax).toRat + total o.shares ≤ b.withholdings.toRat
  deductions : o.explicit.toRat + o.delayPenalty.toRat
    + o.absenceDeduction.toRat ≤ b.deductions.toRat
  totalDeductions : ∀ adjusted d,
    o.delayPenalty.add o.absenceDeduction = .ok adjusted →
    o.explicit.add adjusted = .ok d → d.toRat ≤ b.deductions.toRat

end Outset

-- ======================================================= on the safe side

namespace Estimate

variable (e : Estimate r s)

/-- There is a gross, between those of the estimate. -/
theorem exists_gross_between (rounding : Rounding) : ∃ overtime gross,
    e.overtime.rounded rounding = .ok overtime
      ∧ e.fixedPay.add overtime.total = .ok gross
      ∧ Between e.grossFloor gross e.grossCeiling := by
  have hfloor : Below (e.overtime.lines.map (·.amount.floor))
      (e.overtime.lines.map fun l => rounding.round l.amount) :=
    below_map fun l _ => rounding.floor_le_round l.amount
  have hceiling : Below
      (e.overtime.lines.map fun l => rounding.round l.amount)
      (e.overtime.lines.map (·.amount.ceil)) :=
    below_map fun l _ => rounding.round_le_ceil l.amount
  obtain ⟨total, htotal, hbetween⟩ :=
    hfloor.exists_sum hceiling e.overtimeFloor_ok e.overtimeCeiling_ok
  obtain ⟨overtime, hovertime, rfl⟩ := Overtime.exists_rounded htotal
  obtain ⟨gross, hgross, hgross'⟩ := (Between.refl e.fixedPay).exists_add
    hbetween e.grossFloor_ok e.grossCeiling_ok
  exact ⟨overtime, gross, hovertime, hgross, hgross'⟩

/-- The calculators have refused a lowest gross that is negative. -/
theorem grossFloor_nonneg : 0 ≤ e.grossFloor.toRat :=
  (Contributions.compute_eq_ok.1 e.least_ok).1

theorem employeeFloor_nonneg (hs : s.Proper) :
    0 ≤ e.employeeFloor.toRat := by
  refine toRat_sum_nonneg (fun a ha => ?_) e.employeeFloor_ok
  exact (payable_floor
    (Contributions.employee_nonneg hs.contributions e.least_ok) a ha).nonneg

/-- The shares of a gross lie, rate by rate, between those of a lower
gross, rounded down, and those of a higher one, rounded up. -/
theorem below_shares (hs : s.Proper) (rounding : Rounding)
    {gross : Decimal}
    (hgross : Between e.grossFloor gross e.grossCeiling)
    {c : Contributions}
    (hc : Contributions.compute gross s.contributions = .ok c) :
    Below (e.least.lines.map (·.employeeAmount.floor))
        ((c.rounded rounding).lines.map (·.employeeAmount))
      ∧ Below ((c.rounded rounding).lines.map (·.employeeAmount))
        (e.most.lines.map (·.employeeAmount.ceil)) := by
  have hleast := Contributions.map_employee (fun v => (⌊v⌋ : ℚ)) e.least_ok
  have hshares := Contributions.map_employee rounding.value hc
  have hmost := Contributions.map_employee (fun v => (⌈v⌉ : ℚ)) e.most_ok
  have hleast' : (e.least.lines.map (·.employeeAmount.floor)).map toRat
      = s.contributions.map fun r =>
        (⌊r.employeeDue e.grossFloor.toRat⌋ : ℚ) := by
    rw [← hleast]
    simp only [List.map_map, Function.comp_def, toRat_floor]
  have hshares' :
      ((c.rounded rounding).lines.map (·.employeeAmount)).map toRat
        = s.contributions.map fun r =>
          rounding.value (r.employeeDue gross.toRat) := by
    rw [← hshares]
    simp only [Contributions.rounded, List.map_map, Function.comp_def,
      Rounding.toRat_round]
  have hmost' : (e.most.lines.map (·.employeeAmount.ceil)).map toRat
      = s.contributions.map fun r =>
        (⌈r.employeeDue e.grossCeiling.toRat⌉ : ℚ) := by
    rw [← hmost]
    simp only [List.map_map, Function.comp_def, toRat_ceil]
  constructor
  · refine below_of_map hleast' hshares' fun r hr => ?_
    have hdue := ContributionRate.employeeDue_mono
      (hs.contributions r hr) hgross.le
    exact (rounding.floor_le_value _).trans (rounding.value_mono hdue)
  · refine below_of_map hshares' hmost' fun r hr => ?_
    have hdue := ContributionRate.employeeDue_mono
      (hs.contributions r hr) hgross.ge
    exact (rounding.value_mono hdue).trans (rounding.value_le_ceil _)

/-- A taxable income of a gross and of what is withheld of it, not above
that of the estimate. -/
theorem exists_taxable_le {gross withheld : Decimal}
    (hgross : 0 ≤ gross.toRat) (hwithheld : 0 ≤ withheld.toRat)
    (hle : gross.toRat ≤ e.grossCeiling.toRat)
    (hge : e.employeeFloor.toRat ≤ withheld.toRat) :
    ∃ taxable, s.incomeTax.base.taxableIncome gross withheld = .ok taxable
      ∧ taxable.toRat ≤ e.taxable.toRat := by
  have hestimated := e.taxable_ok
  cases hbase : s.incomeTax.base with
  | gross =>
      rw [hbase] at hestimated
      have hceiling : e.grossCeiling = e.taxable := Except.ok.inj hestimated
      exact ⟨gross, rfl, hceiling ▸ hle⟩
  | grossLessEmployeeContributions =>
      rw [hbase] at hestimated
      obtain ⟨taxable, htaxable⟩ := exists_sub_of_nonneg hgross hwithheld
      refine ⟨taxable, htaxable, ?_⟩
      rw [toRat_sub htaxable, toRat_sub hestimated]
      exact nearest_mono (by linarith)

/-- Tax and contributions make up the withholdings exactly. -/
theorem withholdings_eq : e.withholdings.toRat = e.assessed.tax.ceil.toRat
      + total (e.most.lines.map (·.employeeAmount.ceil))
    ∧ e.employeeCeiling.toRat
      = total (e.most.lines.map (·.employeeAmount.ceil)) := by
  have hwhole : ∀ a ∈ e.most.lines.map (·.employeeAmount.ceil),
      Whole 0 a.toRat := by
    intro a ha
    obtain ⟨l, -, rfl⟩ := List.mem_map.1 ha
    exact whole_ceil _
  obtain ⟨hsum, hsumWhole⟩ := toRat_sum_whole hwhole e.employeeCeiling_ok
  refine ⟨?_, hsum⟩
  rw [toRat_add_whole e.withholdings_ok (whole_ceil _) hsumWhole, hsum]

/-- So do the three parts of a small bound on the deductions. -/
theorem deductions_eq (hs : s.Proper)
    (hr : ∀ a ∈ r.deductions.values, InLedger a.toRat)
    (hlt : e.deductions.toRat < 10 ^ 20) :
    e.deductions.toRat = e.explicit.toRat
      + e.adjustment.delayPenalty.ceil.toRat
      + e.adjustment.absenceDeduction.ceil.toRat := by
  obtain ⟨hpenalty, habsence⟩ :=
    Adjustment.compute_nonneg hs.attendance e.adjustment_ok
  have hpenalty' := (held_ceil hpenalty).nonneg
  have habsence' := (held_ceil habsence).nonneg
  have hledger : InLedger e.explicit.toRat := whole_sum hr e.explicit_ok
  have hpenalized := toRat_le_add_left habsence' e.deductions_ok
  have hsum := toRat_add_of_lt e.penalized_ok hledger (whole_ceil _)
    hpenalty' (by linarith)
  have hpenalizedLedger : InLedger e.penalized.toRat :=
    whole_add e.penalized_ok hledger (held_ceil hpenalty).inLedger
  rw [toRat_add_of_lt e.deductions_ok hpenalizedLedger (whole_ceil _)
    habsence' hlt, hsum]

-- =============================================================== enclosure

/-- Where there is an estimate the calculation comes as far as the tax,
on the safe side of the bounds. -/
theorem exists_outset (hs : s.Proper)
    (hr : ∀ a ∈ r.deductions.values, InLedger a.toRat)
    (hlt : e.deductions.toRat < 10 ^ 20) (rounding : Rounding) :
    ∃ o : Outset r s rounding, o.Within e.bounds := by
  obtain ⟨overtime, gross, hovertime, hgross, hbetween⟩ :=
    e.exists_gross_between rounding
  have hnonneg := e.grossFloor_nonneg.trans hbetween.le
  obtain ⟨c, hc⟩ := Contributions.exists_compute hs.contributions hnonneg
  obtain ⟨hleast, hmost⟩ := e.below_shares hs rounding hbetween hc
  obtain ⟨withheld, hwithheld, hshares⟩ :=
    hleast.exists_sum hmost e.employeeFloor_ok e.employeeCeiling_ok
  obtain ⟨taxable, htaxable, htaxable'⟩ := e.exists_taxable_le hnonneg
    ((e.employeeFloor_nonneg hs).trans hshares.le) hbetween.ge hshares.le
  have htax : ∀ t, s.incomeTax.assess taxable = .ok t →
      (rounding.round t.tax).toRat ≤ e.assessed.tax.ceil.toRat := by
    intro t ht
    obtain ⟨t', ht', -, hle⟩ := s.incomeTax.exists_assess_le
      (s.incomeTax.income_nonneg ht) htaxable' e.assessed_ok
    cases ht.symm.trans ht'
    rw [Rounding.toRat_round, toRat_ceil]
    exact (rounding.value_mono hle).trans (rounding.value_le_ceil _)
  obtain ⟨hwithholdings, hceiling⟩ := e.withholdings_eq
  have hdeductions := e.deductions_eq hs hr hlt
  have hpenalty := rounding.round_le_ceil e.adjustment.delayPenalty
  have habsence := rounding.round_le_ceil e.adjustment.absenceDeduction
  refine ⟨{
    hourlyRate := e.hourlyRate
    exactOvertime := e.overtime
    overtime
    allowances := e.allowances
    fixedPay := e.fixedPay
    gross
    exactContributions := c
    withheld, taxable
    dailyRate := e.dailyRate
    exactAdjustment := e.adjustment
    explicit := e.explicit
    hourlyRate_ok := e.hourlyRate_ok
    exactOvertime_ok := e.overtime_ok
    overtime_ok := hovertime
    allowances_ok := e.allowances_ok
    fixedPay_ok := e.fixedPay_ok
    gross_ok := hgross
    contributions_ok := hc
    withheld_ok := hwithheld
    taxable_ok := htaxable
    dailyRate_ok := e.dailyRate_ok
    adjustment_ok := e.adjustment_ok
    explicit_ok := e.explicit_ok }, ?_⟩
  refine ⟨hbetween.le, fun t ht => ?_, fun t ht => ?_, ?_,
    fun adjusted d hadjusted hd => ?_⟩
  · show _ ≤ e.withholdings.toRat
    rw [hwithholdings, ← hceiling]
    exact add_le_add (htax t ht) hshares.ge
  · show _ ≤ e.withholdings.toRat
    rw [hwithholdings]
    exact add_le_add (htax t ht) hmost.total_le
  · show e.explicit.toRat + (rounding.round _).toRat
      + (rounding.round _).toRat ≤ e.deductions.toRat
    linarith
  · -- the parts in another order: whole amounts first, which is exact
    have hparts : adjusted.toRat ≤ e.adjustment.delayPenalty.ceil.toRat
        + e.adjustment.absenceDeduction.ceil.toRat := by
      rw [toRat_add hadjusted, ← nearest_whole
        ((whole_ceil e.adjustment.delayPenalty).add
          (whole_ceil e.adjustment.absenceDeduction))]
      exact nearest_mono (add_le_add hpenalty habsence)
    show d.toRat ≤ e.deductions.toRat
    rw [toRat_add hd, ← nearest_toRat e.deductions]
    refine nearest_mono ?_
    show e.explicit.toRat + adjusted.toRat ≤ e.deductions.toRat
    linarith

end Estimate

/-- Where the bounds of a request exist, the amounts of its calculation
exist as far as they do not hang on the tax, there is one of each, and
they are on the safe side of the bounds. So is every payslip that comes
of them, whatever day it is. -/
theorem bounds_enclose (r : Request) (s : Snapshot) (rounding : Rounding)
    (hs : s.check = .ok ())
    (hr : ∀ a ∈ r.deductions.values, InLedger a.toRat) {b : NetBounds}
    (h : NetBounds.estimate r s = .ok (some b))
    (hlt : b.deductions.toRat < 10 ^ 20) :
    ∃ o : Outset r s rounding, (∀ o', o' = o) ∧ o.Within b
      ∧ ∀ asOf p, calculateWith r s rounding asOf = .ok p →
        b.gross ≤ p.grossSalary
          ∧ p.incomeTax.toRat + total p.contributions.values
            ≤ b.withholdings.toRat
          ∧ p.totalDeductions ≤ b.deductions := by
  have hproper := Snapshot.proper_of_check hs
  obtain ⟨e, rfl⟩ := Estimate.of_estimate h
  obtain ⟨o, ho⟩ := e.exists_outset hproper hr hlt rounding
  refine ⟨o, fun o' => o'.unique o, ho, fun asOf p hp => ?_⟩
  obtain ⟨-, -, -, st, t, rfl⟩ := (calculateWith_eq_ok hproper).1 hp
  cases o.unique (.ofSettlement st t)
  have hschemes : (st.contributions.lines.map (·.scheme)).Nodup := by
    rw [Stages.contributions, Contributions.scheme_rounded,
      Contributions.map_scheme st.contributions_ok]
    exact hproper.schemes
  have hshares : total t.payslip.contributions.values
      = total (st.contributions.lines.map (·.employeeAmount)) :=
    Contributions.total_byScheme hschemes
  refine ⟨le_iff_toRat.2 ho.gross, ?_, le_iff_toRat.2 ?_⟩
  · rw [hshares]
    exact ho.shares _ st.tax_ok
  · exact ho.totalDeductions _ _ t.adjusted_ok t.deductions_ok

/-- A month that breaks five rules at once, among them no name, too low
a salary and a deduction below zero. -/
def Senegal.nameless : Request :=
  { employeeId := " "
    period := .of 2024 3
    baseSalary := 50000
    regularHours := 0
    overtimeHours := { night := some 3 }
    allowances := .ofList [("transport", 333.33)]
    deductions := .ofList [("correction", -1000.25),
      ("loan", 90000.50)]
    attendance := { delayMinutes := 20, absenceDays := 1 } }

/-- Its bounds exist and enclose it all the same. -/
theorem bounds_enclose_nameless :
    ∃ o : Outset Senegal.nameless Senegal.snapshot { places := 2 },
      51717.33 ≤ o.gross.toRat
        ∧ o.explicit.toRat + o.delayPenalty.toRat
          + o.absenceDeduction.toRat ≤ 91005.25 := by
  have hestimate : NetBounds.estimate Senegal.nameless Senegal.snapshot
      = .ok (some {
        gross := .of 5171733 2
        withholdings := .of 4449 0
        deductions := .of 9100525 2 }) := by
    decide +kernel
  have hledger : ∀ a ∈ Senegal.nameless.deductions.values,
      InLedger a.toRat := by
    decide +kernel
  have hgross : (Decimal.of 5171733 2).toRat = 51717.33 := by
    decide +kernel
  have hdeductions : (Decimal.of 9100525 2).toRat = 91005.25 := by
    decide +kernel
  obtain ⟨o, -, ho, -⟩ := bounds_enclose Senegal.nameless Senegal.snapshot
    { places := 2 } Senegal.check_snapshot hledger hestimate
    (by rw [hdeductions]; norm_num)
  exact ⟨o, hgross ▸ ho.gross, hdeductions ▸ ho.deductions⟩

end Payroll
