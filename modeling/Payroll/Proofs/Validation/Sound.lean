/-
Validation is sound. A request whose report is valid and whose bounds
could be estimated has a payslip, and one that keeps its two promises:
the deductions stay within the gross and the net is not negative.

# The argument

The calculation runs through the stages of the estimate with amounts of
its own, each rounded to the ledger. Stage by stage its amount exists
and lies on the safe side of the estimated one:

- every line of overtime lies between its floor and its ceiling, so the
  gross lies between the two grosses of the estimate;
- a share of the gross lies between the floor of the share of the lower
  gross and the ceiling of the share of the higher one;
- so the taxable income lies below the estimated one, and not below
  zero, since a valid report found the contributions covered;
- so does the tax, which a smaller income never raises;
- penalty and absence are those of the estimate, rounded.

What is left of the gross is then at least what the estimate found left
of its lower gross. Each existence is part of the argument: an
operation succeeds because the estimate's succeeded on a larger amount,
or because its operands are amounts of a ledger.
-/
import Payroll.Proofs.Payslip.Stages
import Payroll.Proofs.Validation.Bounds
import Payroll.Rules.Senegal

namespace Payroll

open Decimal

variable {r : Request} {s : Snapshot} {rounding : Rounding}

namespace Estimate

variable {e : Estimate r s}

/-- The gross of the calculation lies between those of the estimate. -/
theorem Grounded.exists_stage_gross (h : e.Grounded)
    (hplaces : rounding.places ≤ 4) :
    ∃ overtime gross, e.overtime.rounded rounding = .ok overtime
      ∧ e.fixedPay.add overtime.total = .ok gross ∧ Held gross
      ∧ e.grossFloor.toRat ≤ gross.toRat
      ∧ gross.toRat ≤ e.grossCeiling.toRat := by
  obtain ⟨total, gross, htotal, hgross, hvalue, hheld⟩ := h.exists_gross
    (Overtime.payable_rounded hplaces h.amount_nonneg)
    fun l _ => rounding.round_le_ceil l.amount
  obtain ⟨overtime, hovertime, rfl⟩ := Overtime.exists_rounded htotal
  refine ⟨overtime, gross, hovertime, hgross, hheld, ?_, ?_⟩
  · rw [h.grossFloor_eq.1, hvalue]
    refine add_le_add_right (total_map_le fun l _ => ?_) _
    exact rounding.floor_le_round l.amount
  · rw [h.grossCeiling_eq.1, hvalue]
    refine add_le_add_right (total_map_le fun l _ => ?_) _
    exact rounding.round_le_ceil l.amount

/-- What is withheld lies between what is owed of the two grosses. -/
theorem Grounded.exists_stage_withheld (h : e.Grounded)
    (hplaces : rounding.places ≤ 4) (hlt : e.mostOwed < 10 ^ 20)
    {gross : Decimal} (hgross : Held gross)
    (hfloor : e.grossFloor.toRat ≤ gross.toRat)
    (hceiling : gross.toRat ≤ e.grossCeiling.toRat) :
    ∃ c withheld, Contributions.compute gross s.contributions = .ok c
      ∧ (c.rounded rounding).employeeTotal = .ok withheld
      ∧ Held withheld ∧ e.leastOwed ≤ withheld.toRat
      ∧ withheld.toRat ≤ e.mostOwed := by
  have hproper := h.snapshot.contributions
  obtain ⟨c, hc⟩ := Contributions.exists_compute hproper hgross.nonneg
  have hpay := Contributions.payable_rounded hplaces hproper hc
  have htotal := Contributions.total_employee_rounded rounding hc
  have hleast : e.leastOwed
      ≤ total ((c.rounded rounding).lines.map (·.employeeAmount)) := by
    rw [htotal]
    refine List.sum_le_sum fun r hr => ?_
    have hdue := ContributionRate.employeeDue_mono (hproper r hr) hfloor
    have hwhole : (⌊r.employeeDue e.grossFloor.toRat⌋ : ℚ)
        ≤ ⌊r.employeeDue gross.toRat⌋ := by
      exact_mod_cast Int.floor_le_floor hdue
    exact hwhole.trans (rounding.floor_le_value _)
  have hmost : total ((c.rounded rounding).lines.map (·.employeeAmount))
      ≤ e.mostOwed := by
    rw [htotal]
    refine List.sum_le_sum fun r hr => ?_
    have hdue := ContributionRate.employeeDue_mono (hproper r hr) hceiling
    have hwhole : (⌈r.employeeDue gross.toRat⌉ : ℚ)
        ≤ ⌈r.employeeDue e.grossCeiling.toRat⌉ := by
      exact_mod_cast Int.ceil_le_ceil hdue
    exact (rounding.value_le_ceil _).trans hwhole
  obtain ⟨withheld, hsum, hvalue, hheld⟩ :=
    hpay.exists_sum (by linarith)
  rw [← hvalue] at hleast hmost
  exact ⟨c, withheld, hc, hsum, hheld, hleast, hmost⟩

/-- The amounts of a calculation up to its taxable income, beside an
estimate of the same request. -/
structure Midway (e : Estimate r s) (rounding : Rounding) where
  overtime : Overtime
  gross : Decimal
  exactContributions : Contributions
  withheld : Decimal
  taxable : Decimal
  overtime_ok : e.overtime.rounded rounding = .ok overtime
  gross_ok : e.fixedPay.add overtime.total = .ok gross
  contributions_ok : Contributions.compute gross s.contributions
    = .ok exactContributions
  withheld_ok : (exactContributions.rounded rounding).employeeTotal
    = .ok withheld
  taxable_ok : s.incomeTax.base.taxableIncome gross withheld = .ok taxable

namespace Midway

/-- With a tax the calculation goes on, and its attendance is the
estimate's. -/
def stages (m : e.Midway rounding) {t : TaxAssessment}
    (ht : s.incomeTax.assess m.taxable = .ok t) : Stages r s rounding where
  hourlyRate := e.hourlyRate
  exactOvertime := e.overtime
  overtime := m.overtime
  allowances := e.allowances
  fixedPay := e.fixedPay
  gross := m.gross
  exactContributions := m.exactContributions
  withheld := m.withheld
  taxable := m.taxable
  exactTax := t
  dailyRate := e.dailyRate
  exactAdjustment := e.adjustment
  hourlyRate_ok := e.hourlyRate_ok
  exactOvertime_ok := e.overtime_ok
  overtime_ok := m.overtime_ok
  allowances_ok := e.allowances_ok
  fixedPay_ok := e.fixedPay_ok
  gross_ok := m.gross_ok
  contributions_ok := m.contributions_ok
  withheld_ok := m.withheld_ok
  taxable_ok := m.taxable_ok
  tax_ok := ht
  dailyRate_ok := e.dailyRate_ok
  adjustment_ok := e.adjustment_ok

/-- Every amount lies between the bounds of the estimate. -/
structure Between (m : e.Midway rounding) : Prop where
  gross : Held m.gross
  withheld : Held m.withheld
  grossFloor_le : e.grossFloor.toRat ≤ m.gross.toRat
  le_grossCeiling : m.gross.toRat ≤ e.grossCeiling.toRat
  leastOwed_le : e.leastOwed ≤ m.withheld.toRat
  le_mostOwed : m.withheld.toRat ≤ e.mostOwed
  taxable_eq : m.taxable.toRat
    = s.incomeTax.base.taxed m.gross.toRat m.withheld.toRat
  taxable_inLedger : InLedger m.taxable.toRat

end Midway

/-- The calculation comes as far as its taxable income. -/
theorem Grounded.exists_midway (h : e.Grounded)
    (hplaces : rounding.places ≤ 4) (hlt : e.mostOwed < 10 ^ 20) :
    ∃ m : e.Midway rounding, m.Between := by
  obtain ⟨overtime, gross, hovertime, hgross, hheld, hfloor, hceiling⟩ :=
    h.exists_stage_gross hplaces
  obtain ⟨c, withheld, hc, hwithheld, hheld', hleast, hmost⟩ :=
    h.exists_stage_withheld hplaces hlt hheld hfloor hceiling
  have hgrosslt := h.grossCeiling_lt
  obtain ⟨taxable, htaxable, hvalue, hledger⟩ :=
    s.incomeTax.base.exists_taxableIncome hheld hheld' (by linarith)
      (by linarith)
  exact ⟨{
    overtime, gross, exactContributions := c, withheld, taxable
    overtime_ok := hovertime
    gross_ok := hgross
    contributions_ok := hc
    withheld_ok := hwithheld
    taxable_ok := htaxable },
    ⟨hheld, hheld', hfloor, hceiling, hleast, hmost, hvalue, hledger⟩⟩

/-- The estimated taxable income in exact terms. -/
theorem Grounded.taxable_eq (h : e.Grounded)
    (hlt : e.mostOwed < 10 ^ 20) : e.taxable.toRat
      = s.incomeTax.base.taxed e.grossCeiling.toRat e.leastOwed
    ∧ InLedger e.taxable.toRat := by
  obtain ⟨hfloor, hheld⟩ := h.employeeFloor_eq hlt
  have hgrosslt := h.grossCeiling_lt
  have hle := h.leastOwed_le
  obtain ⟨taxable, htaxable, hvalue, hledger⟩ :=
    s.incomeTax.base.exists_taxableIncome h.grossCeiling_eq.2 hheld
      (by linarith) (by linarith)
  rw [e.taxable_ok] at htaxable
  cases htaxable
  exact ⟨by rw [hvalue, hfloor], hledger⟩

/-- The estimate taxes no less than the calculation, and more by no more
than its gross is higher and its contributions are lower. -/
theorem Midway.Between.taxable_le {m : e.Midway rounding} (hm : m.Between)
    (h : e.Grounded) (hlt : e.mostOwed < 10 ^ 20) :
    m.taxable.toRat ≤ e.taxable.toRat
      ∧ e.taxable.toRat - m.taxable.toRat
        ≤ e.grossCeiling.toRat - m.gross.toRat
          + (m.withheld.toRat - e.leastOwed) := by
  have hgross := hm.le_grossCeiling
  have hleast := hm.leastOwed_le
  rw [hm.taxable_eq, (h.taxable_eq hlt).1]
  cases s.incomeTax.base with
  | gross => exact ⟨hgross, by simp only [TaxBase.taxed]; linarith⟩
  | grossLessEmployeeContributions =>
      simp only [TaxBase.taxed]
      constructor <;> linarith

/-- What a valid report found covered leaves a taxable income that is
not negative. -/
theorem Vetted.taxable_nonneg (h : e.Vetted) {m : e.Midway rounding}
    (hm : m.Between) : 0 ≤ m.taxable.toRat := by
  have hgross := hm.gross.nonneg
  have hfloor := hm.grossFloor_le
  have hmost := hm.le_mostOwed
  have hcovered := h.covered_exact
  have htax := e.held_tax.nonneg
  obtain ⟨hpenalty, habsence⟩ := h.grounded.held_adjustment
  have hpenalty' := hpenalty.nonneg
  have habsence' := habsence.nonneg
  have hdeductions :=
    (h.request.payable_deductions h.moderate.toInLedger).nonneg
  rw [hm.taxable_eq]
  cases s.incomeTax.base with
  | gross => exact hgross
  | grossLessEmployeeContributions =>
      simp only [TaxBase.taxed]
      linarith

/-- The stages of the calculation, on the safe side of the estimate. -/
theorem Vetted.exists_stages (h : e.Vetted)
    (hplaces : rounding.places ≤ 4) :
    ∃ st : Stages r s rounding, st.exactAdjustment = e.adjustment
      ∧ Held st.gross ∧ Held st.withheld
      ∧ e.grossFloor.toRat ≤ st.gross.toRat
      ∧ st.gross.toRat < 10 ^ 20
      ∧ st.withheld.toRat ≤ e.mostOwed
      ∧ 0 ≤ st.exactTax.tax.toRat
      ∧ st.exactTax.tax.toRat ≤ e.assessed.tax.toRat := by
  have hlt := h.mostOwed_lt
  obtain ⟨m, hm⟩ := h.grounded.exists_midway hplaces hlt
  obtain ⟨t, ht, hnonneg, hle⟩ := s.incomeTax.exists_assess_le
    (h.taxable_nonneg hm) (hm.taxable_le h.grounded hlt).1 e.assessed_ok
  exact ⟨m.stages ht, rfl, hm.gross, hm.withheld, hm.grossFloor_le,
    hm.le_grossCeiling.trans_lt h.grounded.grossCeiling_lt,
    hm.le_mostOwed, hnonneg, hle⟩

/-- The parts can be put together: each lies on the safe side of the
estimate, which is covered. -/
theorem Vetted.exists_settlement (h : e.Vetted)
    (hplaces : rounding.places ≤ 4) :
    ∃ st : Stages r s rounding, Nonempty (Settlement st) := by
  obtain ⟨st, hadjustment, hgross, hwithheld, hfloor, hlt, hmost,
    htaxnonneg, htaxle⟩ := h.exists_stages hplaces
  obtain ⟨hpenalty, habsence⟩ :=
    Adjustment.compute_nonneg h.snapshot.attendance e.adjustment_ok
  obtain ⟨hexplicit, hasked⟩ := h.explicit_eq
  have hcovered := h.covered_exact
  have hple := rounding.round_le_ceil e.adjustment.delayPenalty
  have hale := rounding.round_le_ceil e.adjustment.absenceDeduction
  have htaxle' : st.tax.tax.toRat ≤ e.assessed.tax.ceil.toRat := by
    show (rounding.round st.exactTax.tax).toRat ≤ _
    rw [Rounding.toRat_round, toRat_ceil]
    exact (rounding.value_mono htaxle).trans (rounding.value_le_ceil _)
  have hadjusted : st.adjustment = e.adjustment.rounded rounding := by
    rw [Stages.adjustment, hadjustment]
  obtain ⟨t, -⟩ := st.exists_settlement e.explicit_ok hasked hgross
    (by linarith) (rounding.held_round hplaces htaxnonneg) hwithheld
    (by rw [hadjusted]; exact rounding.held_round hplaces hpenalty)
    (by rw [hadjusted]; exact rounding.held_round hplaces habsence)
    (by
      rw [hadjusted, hexplicit]
      show _ + _ + (_ + ((rounding.round _).toRat
        + (rounding.round _).toRat)) ≤ _
      linarith)
  exact ⟨st, ⟨t⟩⟩

end Estimate

-- =============================================================== soundness

/-- A valid report of a request whose bounds exist has a payslip behind
it that pays out no less than nothing and deducts no more than the
gross. A report that is not valid is the answer of the calculation. -/
theorem validation_sound (r : Request) (s : Snapshot)
    (rounding : Rounding) (asOf : Date) (hs : s.check = .ok ())
    (hplaces : rounding.places ≤ 4) (hr : r.Moderate s) {report : Report}
    (h : validate r s asOf = .ok report) :
    (report.valid = true → ∀ b, NetBounds.estimate r s = .ok (some b) →
      ∃ p, calculateWith r s rounding asOf = .ok p
        ∧ .zero ≤ p.netSalary ∧ p.totalDeductions ≤ p.grossSalary)
    ∧ (report.valid = false → calculateWith r s rounding asOf
      = .error (.error (.rejected report))) := by
  refine ⟨fun hvalid b hb => ?_, calculateWith_of_not_valid h⟩
  have hproper := Snapshot.proper_of_check hs
  obtain ⟨e, rfl⟩ := Estimate.of_estimate hb
  have hvetted : e.Vetted :=
    ⟨hproper, accepted_of_valid h hvalid, hr, covered_of_valid h hvalid hb⟩
  obtain ⟨st, ⟨t⟩⟩ := hvetted.exists_settlement hplaces
  refine ⟨t.payslip, ?_, ?_, ?_⟩
  · exact (calculateWith_eq_ok hproper).2
      ⟨report, h, hvalid, st, t, rfl⟩
  · rw [le_iff_toRat, toRat_zero]
    exact t.net_nonneg
  · rw [le_iff_toRat]
    exact t.deductions_le

/-- A month with overtime at night, a delay and a day of absence. -/
def Senegal.clerk : Request :=
  { employeeId := "E-7"
    period := .of 2024 3
    baseSalary := 500000
    regularHours := 160
    overtimeHours := { night := some 3 }
    allowances := .ofList [("transport", 20000.5)]
    deductions := .ofList [("loan", 10000.50)]
    attendance := { delayMinutes := 20, absenceDays := 1 } }

theorem Senegal.moderate_clerk : clerk.Moderate snapshot where
  base := by decide +kernel
  allowances := by decide +kernel
  deductions := by decide +kernel
  earnings_lt := by
    intro hourlyRate o hrate ho
    have hlt : ((snapshot.hourlyRate clerk.baseSalary).toOption.bind
        fun hourlyRate => (Overtime.compute clerk.overtimeHours hourlyRate
          snapshot.overtime).toOption.map fun o =>
            decide (clerk.baseSalary.toRat + total clerk.allowances.values
              + total (o.lines.map (·.amount.ceil)) < 10 ^ 20))
        = some true := by decide +kernel
    rw [hrate] at hlt
    simp only [Except.toOption, Option.bind_some, ho, Option.map_some,
      Option.some.injEq, decide_eq_true_eq] at hlt
    exact hlt

/-- The clerk's month passes validation and is paid. -/
theorem validation_sound_clerk :
    Senegal.snapshot.check = .ok () ∧ Senegal.clerk.Moderate Senegal.snapshot
      ∧ validate Senegal.clerk Senegal.snapshot
        { year := 2024, month := 4, day := 1 } = .ok .empty
      ∧ ∃ p, calculateWith Senegal.clerk Senegal.snapshot { places := 0 }
          { year := 2024, month := 4, day := 1 } = .ok p
        ∧ .zero ≤ p.netSalary ∧ p.totalDeductions ≤ p.grossSalary := by
  have hvalid : validate Senegal.clerk Senegal.snapshot
      { year := 2024, month := 4, day := 1 } = .ok .empty := by
    decide +kernel
  have hestimate : NetBounds.estimate Senegal.clerk Senegal.snapshot
      = .ok (some {
        gross := .of 5338465 1
        withholdings := .of 187388 0
        deductions := .of 3003350 2 }) := by
    decide +kernel
  have hsound := validation_sound Senegal.clerk Senegal.snapshot
    { places := 0 } _ Senegal.check_snapshot (by decide)
    Senegal.moderate_clerk hvalid
  exact ⟨Senegal.check_snapshot, Senegal.moderate_clerk, hvalid,
    hsound.1 rfl _ hestimate⟩

end Payroll
