/-
How far the bounds are off. A request that only the bounds refuse would
have been paid little: what its own rounded calculation leaves of the
gross is less than a few units of the currency, a number that the lines
of overtime and the contribution schemes determine and no amount does.

# The account

The bounds and the calculation take the same amounts and round them
differently, so they differ by

- one unit for each line of overtime, in the two grosses;
- a share of that and two units for each scheme, in what is owed of
  the two grosses: the rates leave something of the gross, so all
  shares together grow by less than the gross does;
- one unit each for penalty and absence;
- in the tax, one unit for its ceiling, half a unit for its rounding,
  and what the tax base differs by, since no tax grows faster than its
  income.

The differences of the tax base are those of gross and contributions,
counted a second time for the gross and, because a base that is lower
by a contribution is what the contribution leaves, not a second time
for the contributions (`Midway.Between.taxable_le`). That makes less
than two units for each line and each scheme, and four more.

# Where sums are exact

The limits on places and on the gross leave nothing to round in any sum
but one: penalty and absence are not limited by the gross. Where they
exceed it by far, there is nothing left to account for.
-/
import Mathlib.Algebra.BigOperators.Ring.List
import Payroll.Proofs.Contribution.Burden
import Payroll.Proofs.IncomeTax.Slope
import Payroll.Proofs.Payslip.Statutory
import Payroll.Proofs.Validation.Sound

namespace Payroll

open Decimal

/-- Rules whose bounds, ceilings and rates have so few places that no
product with an amount of a ledger is rounded. -/
structure Snapshot.Measured (s : Snapshot) : Prop where
  table : s.incomeTax.table.Measured
  contributions : ∀ c ∈ s.contributions, c.Measured

variable {r : Request} {s : Snapshot} {rounding : Rounding}

/-- A request whose gross, each line of overtime rounded down, stays
below a limit. -/
def Request.EarnsLess (r : Request) (s : Snapshot) (limit : ℚ) : Prop :=
  ∀ hourlyRate o, s.hourlyRate r.baseSalary = .ok hourlyRate →
    Overtime.compute r.overtimeHours hourlyRate s.overtime = .ok o →
    r.fixed + total (o.lines.map (·.amount.floor)) < limit

/-- No sum or difference of money is rounded for it. -/
theorem Request.EarnsLess.moderate (h : r.EarnsLess s (10 ^ 15))
    (hs : s.Proper) (hr : r.InLedger) : r.Moderate s where
  toInLedger := hr
  earnings_lt := by
    intro hourlyRate o hrate ho
    have hlt := h hourlyRate o hrate ho
    have hlines := total_ceil_le o.lines (·.amount)
    have hcount : (o.lines.length : ℚ) ≤ 4 := by
      exact_mod_cast Overtime.length_lines_le hs.overtime ho
    unfold Request.fixed at hlt
    linarith

namespace Estimate

variable {e : Estimate r s}

-- ============================================================ the grosses

/-- The grosses differ by one unit for each line. -/
theorem Grounded.grossCeiling_le (h : e.Grounded) : e.grossCeiling.toRat
    ≤ e.grossFloor.toRat + e.overtime.lines.length := by
  rw [h.grossCeiling_eq.1, h.grossFloor_eq.1]
  linarith [total_ceil_le e.overtime.lines (·.amount)]

-- ========================================================== what is owed

/-- What is owed at most stays within the gross, up to the millionth
parts that rates are measured in. -/
theorem Grounded.mostOwed_le (h : e.Grounded) (hs : s.check = .ok ())
    (hm : s.Measured) (hle : e.grossCeiling.toRat ≤ 10 ^ 16) :
    e.mostOwed ≤ e.grossCeiling.toRat + 10 ^ 6 := by
  have hgross := h.grossCeiling_eq.2
  have hnonneg := hgross.nonneg
  have hrates := Snapshot.sum_employeeRate_lt hs
  calc e.mostOwed
      ≤ (s.contributions.map fun c =>
          (e.grossCeiling.toRat + 10 ^ 6) * c.employeeRate.toRat).sum :=
        List.sum_le_sum fun c hc =>
          ContributionRate.ceil_employeeDue_le
            (h.snapshot.contributions c hc) (hm.contributions c hc)
            hgross.inLedger hnonneg (by linarith)
    _ = (e.grossCeiling.toRat + 10 ^ 6)
          * (s.contributions.map (·.employeeRate.toRat)).sum :=
        List.sum_map_mul_left ..
    _ ≤ e.grossCeiling.toRat + 10 ^ 6 :=
        mul_le_of_le_one_right (by positivity) hrates.le

/-- What is owed at most and at least differs by two units for each
scheme and by no more than the grosses do. -/
theorem Grounded.mostOwed_sub_le (h : e.Grounded) (hs : s.check = .ok ())
    (hm : s.Measured) (hle : e.grossCeiling.toRat ≤ 10 ^ 16) :
    e.mostOwed - e.leastOwed ≤ e.grossCeiling.toRat - e.grossFloor.toRat
      + 2 * s.contributions.length := by
  have hceiling := h.grossCeiling_eq.2
  have hfloor := h.grossFloor_eq.2
  have hrates := Snapshot.sum_employeeRate_lt hs
  have hgain := sub_nonneg.2 h.grossFloor_le
  have hschemes : e.mostOwed ≤ (s.contributions.map fun c =>
      (⌊c.employeeDue e.grossFloor.toRat⌋ : ℚ)
        + (e.grossCeiling.toRat - e.grossFloor.toRat)
          * c.employeeRate.toRat).sum + s.contributions.length * 2 := by
    refine sum_map_le_add fun c hc => ?_
    have hdue := ContributionRate.employeeDue_sub_le
      (h.snapshot.contributions c hc) (hm.contributions c hc)
      hfloor.inLedger hceiling.inLedger hfloor.nonneg h.grossFloor_le
      (by linarith)
    have hup := Int.ceil_lt_add_one
      (c.employeeDue e.grossCeiling.toRat)
    have hdown := Int.lt_floor_add_one (c.employeeDue e.grossFloor.toRat)
    linarith
  rw [List.sum_map_add, List.sum_map_mul_left] at hschemes
  have hshare := mul_le_of_le_one_right hgain hrates.le
  unfold leastOwed
  linarith

theorem Grounded.employeeCeiling_eq (h : e.Grounded)
    (hlt : e.mostOwed < 10 ^ 20) :
    e.employeeCeiling.toRat = e.mostOwed ∧ Held e.employeeCeiling := by
  have htotal : total (e.most.lines.map (·.employeeAmount.ceil))
      = e.mostOwed := Contributions.total_employee_ceil e.most_ok
  rw [← htotal]
  exact h.payable_most.toRat_sum (by linarith) e.employeeCeiling_ok

-- ======================================================== the exact bounds

/-- Bounds that report something, in exact terms. -/
theorem Grounded.lt_of_uncovered (h : e.Grounded)
    (hlt : e.mostOwed < 10 ^ 20) (hexplicit : e.explicit.toRat ≤ 10 ^ 20)
    (htax : e.assessed.tax.ceil.toRat ≤ 10 ^ 20)
    (hadjusted : e.adjustment.delayPenalty.ceil.toRat
      + e.adjustment.absenceDeduction.ceil.toRat ≤ 10 ^ 20)
    (hb : Uncovered e.bounds) :
    e.grossFloor.toRat < total r.deductions.values
      + e.adjustment.delayPenalty.ceil.toRat
      + e.adjustment.absenceDeduction.ceil.toRat
      + e.assessed.tax.ceil.toRat + e.mostOwed := by
  obtain ⟨hpenalty, habsence⟩ := h.held_adjustment
  have hp := hpenalty.nonneg
  have ha := habsence.nonneg
  obtain ⟨hasked, hheld⟩ := (h.request.payable_deductions
    h.moderate.toInLedger).sum e.explicit_ok (by linarith)
  obtain ⟨hpenalized, hheldp⟩ :=
    hheld.add_of_le hpenalty e.penalized_ok (by linarith)
  obtain ⟨hdeductions, hheldd⟩ :=
    hheldp.add_of_le habsence e.deductions_ok (by linarith)
  obtain ⟨howed, hheldo⟩ := h.employeeCeiling_eq hlt
  obtain ⟨hwithholdings, hheldw⟩ :=
    e.held_tax.add_of_le hheldo e.withholdings_ok (by linarith)
  have htax' := e.held_tax.nonneg
  have howed' := hheldo.nonneg
  have hlt' : e.grossFloor.toRat
      < e.deductions.toRat + e.withholdings.toRat := by
    rcases hb with hb | ⟨taken, htaken, hb⟩
    · have hlt : e.grossFloor.toRat < e.deductions.toRat :=
        lt_iff_toRat.1 hb
      linarith
    · have hlt : e.grossFloor.toRat < taken.toRat := lt_iff_toRat.1 hb
      rwa [(hheldd.add_of_le hheldw htaken (by linarith)).1] at hlt
  linarith

end Estimate

-- =============================================================== the account

namespace Stages

/-- What is left of the gross, without asking whether it is negative. -/
def remainder (st : Stages r s rounding) : ℚ :=
  st.gross.toRat - st.tax.tax.toRat - st.withheld.toRat
    - (total r.deductions.values + st.adjustment.delayPenalty.toRat
      + st.adjustment.absenceDeduction.toRat)

/-- Where it is not, it is the net. -/
theorem Modest.net_eq_remainder {st : Stages r s rounding} (h : st.Modest)
    (t : Settlement st) : t.net.toRat = st.remainder := by
  rw [t.net_eq h, (t.deductions_eq h).1, remainder]

end Stages

namespace Estimate

variable {e : Estimate r s}

/-- The tax of the estimate, rounded up, against the tax of the
calculation: the slope of the tax is one at most, and what is rounded
makes one and a half. -/
theorem Midway.Between.ceil_tax_lt {m : e.Midway rounding}
    (hbetween : m.Between) (h : e.Grounded) (hm : s.Measured)
    (hlt : e.mostOwed < 10 ^ 20) (hle : e.grossCeiling.toRat ≤ 10 ^ 16)
    {t : TaxAssessment} (ht : s.incomeTax.assess m.taxable = .ok t) :
    e.assessed.tax.ceil.toRat - (rounding.round t.tax).toRat
        < e.grossCeiling.toRat - m.gross.toRat
          + (m.withheld.toRat - e.leastOwed) + 8 / 5
      ∧ e.assessed.tax.ceil.toRat ≤ 10 ^ 20 := by
  obtain ⟨htaxable, hbase⟩ := hbetween.taxable_le h hlt
  obtain ⟨hvalue, hledger⟩ := h.taxable_eq hlt
  obtain ⟨hleast, hheld⟩ := h.employeeFloor_eq hlt
  have hincome : e.taxable.toRat ≤ 10 ^ 16 := by
    rw [hvalue]
    exact (s.incomeTax.base.taxed_le (hleast ▸ hheld.nonneg)).trans hle
  have hslope := s.incomeTax.assess_sub_le hm.table
    hbetween.taxable_inLedger hledger (s.incomeTax.income_nonneg ht)
    htaxable hincome ht e.assessed_ok
  have hsize := s.incomeTax.assess_le hm.table hledger hincome e.assessed_ok
  have hround := rounding.sub_round_le t.tax
  have hceil := Int.ceil_lt_add_one e.assessed.tax.toRat
  rw [toRat_ceil]
  constructor <;> linarith

/-- What a request has left that the bounds refuse. -/
theorem Grounded.remainder_lt (h : e.Grounded) (hs : s.check = .ok ())
    (hm : s.Measured) (hplaces : rounding.places ≤ 4)
    (hle : e.grossCeiling.toRat ≤ 10 ^ 16)
    (hexplicit : e.explicit.toRat ≤ e.fixedPay.toRat)
    (hb : Uncovered e.bounds) {m : e.Midway rounding} (hbetween : m.Between)
    {t : TaxAssessment} (ht : s.incomeTax.assess m.taxable = .ok t) :
    (m.stages ht).remainder < 2 * e.overtime.lines.length
      + 2 * s.contributions.length + 4 := by
  have hlt : e.mostOwed < 10 ^ 20 := by
    linarith [h.mostOwed_le hs hm hle]
  have hlines := h.grossCeiling_le
  have hschemes := h.mostOwed_sub_le hs hm hle
  obtain ⟨htax, hsize⟩ := hbetween.ceil_tax_lt h hm hlt hle ht
  have hpenalty := rounding.ceil_le_round_add_one e.adjustment.delayPenalty
  have habsence :=
    rounding.ceil_le_round_add_one e.adjustment.absenceDeduction
  have hremainder : (m.stages ht).remainder = m.gross.toRat
      - (rounding.round t.tax).toRat - m.withheld.toRat
      - (total r.deductions.values
        + (rounding.round e.adjustment.delayPenalty).toRat
        + (rounding.round e.adjustment.absenceDeduction).toRat) := rfl
  rw [hremainder]
  have hgross := hbetween.le_grossCeiling
  rcases le_or_gt ((rounding.round e.adjustment.delayPenalty).toRat
    + (rounding.round e.adjustment.absenceDeduction).toRat) (10 ^ 17)
    with hsmall | hlarge
  · have hfixed : e.fixedPay.toRat ≤ e.grossCeiling.toRat :=
      toRat_le_add_left (toRat_sum_nonneg
        (fun a ha => (payable_ceil h.amount_nonneg a ha).nonneg)
        e.overtimeCeiling_ok) e.grossCeiling_ok
    have hbounds := h.lt_of_uncovered hlt (by linarith) hsize
      (by linarith) hb
    linarith
  · -- nothing is left of the gross
    have hnonneg := hbetween.withheld.nonneg
    have hasked :=
      (h.request.payable_deductions h.moderate.toInLedger).nonneg
    have htax' := (rounding.held_round hplaces
      (s.incomeTax.assess_nonneg ht)).nonneg
    have hcount : (0 : ℚ) ≤ 2 * e.overtime.lines.length
        + 2 * s.contributions.length := by positivity
    linarith

end Estimate

-- ========================================================== the calculation

/-- The taxable income that the calculation comes to, by its own rounded
stages. -/
def roundedTaxable (r : Request) (s : Snapshot) (rounding : Rounding) :
    Except Failure Decimal := do
  let hourlyRate ← s.hourlyRate r.baseSalary
  let exactOvertime ←
    Overtime.compute r.overtimeHours hourlyRate s.overtime
  let overtime ← exactOvertime.rounded rounding
  let allowances ← r.totalAllowances
  let fixedPay ← r.baseSalary.add allowances
  let gross ← fixedPay.add overtime.total
  let exactContributions ← Contributions.compute gross s.contributions
  let withheld ← (exactContributions.rounded rounding).employeeTotal
  s.incomeTax.base.taxableIncome gross withheld

theorem Estimate.Midway.roundedTaxable_eq {e : Estimate r s}
    (m : e.Midway rounding) :
    roundedTaxable r s rounding = .ok m.taxable := by
  unfold roundedTaxable
  simp only [e.hourlyRate_ok, e.overtime_ok, m.overtime_ok,
    e.allowances_ok, e.fixedPay_ok, m.gross_ok, m.contributions_ok,
    m.withheld_ok, m.taxable_ok, liftM_ok, ok_bind]

/-- A request that passes every check and is refused by the bounds alone
comes as far as its taxable income. If that is assessed, what is left of
the gross is less than a few units, and it is the net wherever there is
one. -/
theorem rejection_slack (r : Request) (s : Snapshot) (rounding : Rounding)
    (asOf : Date) (hs : s.check = .ok ()) (hplaces : rounding.places ≤ 4)
    (hm : s.Measured) (hr : r.InLedger) (hgross : r.EarnsLess s (10 ^ 15))
    {found : List Finding}
    (hfound : Validation.examine r s asOf = .ok found)
    (hfree : ∀ f ∈ found, f.blocks = false) {report : Report}
    (h : validate r s asOf = .ok report)
    (herror : report.hasError "DEDUCTIONS_EXCEED_GROSS" = true
      ∨ report.hasError "NET_SALARY_NEGATIVE" = true) :
    ∃ taxable, roundedTaxable r s rounding = .ok taxable
      ∧ ∀ t, s.incomeTax.assess taxable = .ok t →
        ∃ st : Stages r s rounding, st.taxable = taxable ∧ st.exactTax = t
          ∧ st.remainder < 4 * st.overtime.lines.length
            + 3 * s.contributions.length + 4
          ∧ ∀ settled : Settlement st,
            settled.net.toRat = st.remainder := by
  have hproper := Snapshot.proper_of_check hs
  obtain ⟨haccepted, allowances, fixedPay, explicit, hallowances,
    hfixedPay, hexplicit, hasked⟩ := accepted_of_examine hfound hfree
  obtain ⟨b, hb, huncovered⟩ : ∃ b,
      NetBounds.estimate r s = .ok (some b) ∧ Uncovered b :=
    herror.elim (uncovered_of_hasError hfound hfree h)
      (uncovered_of_hasError hfound hfree h)
  obtain ⟨e, rfl⟩ := Estimate.of_estimate hb
  have hgrounded : e.Grounded :=
    ⟨hproper, haccepted, hgross.moderate hproper hr⟩
  rw [e.allowances_ok] at hallowances
  cases hallowances
  rw [e.fixedPay_ok] at hfixedPay
  cases hfixedPay
  rw [e.explicit_ok] at hexplicit
  cases hexplicit
  have hceiling : e.grossCeiling.toRat ≤ 10 ^ 16 := by
    have hlt := hgross _ _ e.hourlyRate_ok e.overtime_ok
    rw [← hgrounded.grossFloor_eq.1] at hlt
    have hcount : (e.overtime.lines.length : ℚ) ≤ 4 := by
      exact_mod_cast
        Overtime.length_lines_le hproper.overtime e.overtime_ok
    linarith [hgrounded.grossCeiling_le]
  obtain ⟨m, hbetween⟩ := hgrounded.exists_midway hplaces
    (by linarith [hgrounded.mostOwed_le hs hm hceiling])
  refine ⟨m.taxable, m.roundedTaxable_eq, fun t ht => ?_⟩
  have hremainder := hgrounded.remainder_lt hs hm hplaces hceiling hasked
    huncovered hbetween ht
  have hlines : m.overtime.lines.length = e.overtime.lines.length := by
    have hcategories := (Overtime.rounded_eq_ok m.overtime_ok).1
    simpa using congrArg List.length hcategories
  have hmodest : (m.stages ht).Modest := ⟨hproper, haccepted, hr, hplaces,
    hbetween.le_grossCeiling.trans_lt hgrounded.grossCeiling_lt⟩
  refine ⟨m.stages ht, rfl, rfl, ?_, hmodest.net_eq_remainder⟩
  show _ < 4 * (m.overtime.lines.length : ℚ) + _ + _
  have hnonneg : (0 : ℚ) ≤ 2 * e.overtime.lines.length
      + s.contributions.length := by positivity
  rw [hlines]
  linarith

theorem Senegal.measured_snapshot : snapshot.Measured where
  table := measured_incomeTax
  contributions := fun c hc => (fullyMeasured_contributions c hc).toMeasured

/-- A month of overtime at night and a delay, after which a loan takes
all that is left. -/
def Senegal.debtor : Request :=
  { employeeId := "E-9"
    period := .of 2024 3
    baseSalary := 333333
    regularHours := 160
    overtimeHours := { night := some 3 }
    deductions := .ofList [("loan", 231884)]
    attendance := { delayMinutes := 37 } }

theorem Senegal.earnsLess_debtor :
    debtor.EarnsLess snapshot (10 ^ 15) := by
  intro hourlyRate o hrate ho
  have hlt : ((snapshot.hourlyRate debtor.baseSalary).toOption.bind
      fun hourlyRate => (Overtime.compute debtor.overtimeHours hourlyRate
        snapshot.overtime).toOption.map fun o =>
          decide (debtor.baseSalary.toRat + total debtor.allowances.values
            + total (o.lines.map (·.amount.floor)) < 10 ^ 15))
      = some true := by decide +kernel
  rw [hrate] at hlt
  simp only [Except.toOption, Option.bind_some, ho, Option.map_some,
    Option.some.injEq, decide_eq_true_eq] at hlt
  exact hlt

/-- The bounds refuse a month that the calculation would have closed at
nothing left. -/
theorem rejection_slack_debtor : ∃ report taxable t,
    ∃ st : Stages Senegal.debtor Senegal.snapshot { places := 0 },
      Senegal.snapshot.check = .ok ()
      ∧ Senegal.debtor.EarnsLess Senegal.snapshot (10 ^ 15)
      ∧ Validation.examine Senegal.debtor Senegal.snapshot
        { year := 2024, month := 3, day := 31 } = .ok []
      ∧ validate Senegal.debtor Senegal.snapshot
        { year := 2024, month := 3, day := 31 } = .ok report
      ∧ report.hasError "NET_SALARY_NEGATIVE" = true
      ∧ roundedTaxable Senegal.debtor Senegal.snapshot { places := 0 }
        = .ok taxable
      ∧ Senegal.snapshot.incomeTax.assess taxable = .ok t
      ∧ st.taxable = taxable ∧ st.exactTax = t
      ∧ st.remainder < 4 * st.overtime.lines.length
        + 3 * Senegal.snapshot.contributions.length + 4 := by
  have hexamined : Validation.examine Senegal.debtor Senegal.snapshot
      { year := 2024, month := 3, day := 31 } = .ok [] := by
    decide +kernel
  have herror : ((validate Senegal.debtor Senegal.snapshot
      { year := 2024, month := 3, day := 31 }).toOption.map
        (·.hasError "NET_SALARY_NEGATIVE")) = some true := by
    decide +kernel
  have htaxable : roundedTaxable Senegal.debtor Senegal.snapshot
      { places := 0 } = .ok (.of 342564 0) := by
    decide +kernel
  have htax : (Senegal.snapshot.incomeTax.assess (.of 342564 0)).isOk
      = true := by
    decide +kernel
  cases hreport : validate Senegal.debtor Senegal.snapshot
      { year := 2024, month := 3, day := 31 } with
  | error e =>
      rw [hreport] at herror
      cases herror
  | ok report =>
      rw [hreport] at herror
      have herror' : report.hasError "NET_SALARY_NEGATIVE" = true :=
        Option.some.inj herror
      obtain ⟨taxable, hok, hst⟩ := rejection_slack Senegal.debtor
        Senegal.snapshot { places := 0 } _ Senegal.check_snapshot
        (by decide) Senegal.measured_snapshot
        ⟨by decide +kernel, by decide +kernel, by decide +kernel⟩
        Senegal.earnsLess_debtor hexamined (List.forall_mem_nil _) hreport
        (.inr herror')
      rw [htaxable] at hok
      cases hok
      cases ht : Senegal.snapshot.incomeTax.assess (.of 342564 0) with
      | error e =>
          rw [ht] at htax
          cases htax
      | ok t =>
          obtain ⟨st, hsame, hsame', hlt, -⟩ := hst t ht
          exact ⟨report, _, t, st, Senegal.check_snapshot,
            Senegal.earnsLess_debtor, hexamined, rfl, herror', htaxable,
            ht, hsame, hsame', hlt⟩

end Payroll
