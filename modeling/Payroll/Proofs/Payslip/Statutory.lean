/-
A payslip says what the rules say. `Statutory` writes the rules down as
equations between the published figures, in exact arithmetic wherever
amounts are added or subtracted, and `calculate_statutory` says that
every payslip that is returned solves them.

# Why sums are exact

Only the published gross is known to stay below `10 ^ 20`. Everything
else follows from it. Amounts that lead up to the gross are not
negative, so none of them exceeds it. What is taken off it can exceed
it by one at most, or the difference would come out below zero
(`le_add_one_of_sub`), and the net at the end of the chain did not. So
nothing that is added or subtracted has more digits than an amount can
hold, and each rounding in between left its sum alone.
-/
import Payroll.Proofs.IncomeTax.Monotone
import Payroll.Proofs.Payslip.Stages
import Payroll.Proofs.Validation.Estimate
import Payroll.Rules.Senegal

namespace Payroll

open Decimal

/-- What a payslip under given rules has to say. -/
structure Statutory (p : Payslip) (r : Request) (s : Snapshot)
    (rounding : Rounding) : Prop where
  gross : p.grossSalary.toRat = r.baseSalary.toRat
    + total r.allowances.values + total p.overtimeAmounts.values
  /-- Every scheme has its rounded share of the gross under its
  ceiling. -/
  contributions : ∀ c ∈ s.contributions, ∃ due,
    (c.base p.grossSalary).mul c.employeeRate = .ok due
      ∧ p.contributions.get? c.scheme = some (rounding.round due)
  employerContributions : ∀ c ∈ s.contributions, ∃ due,
    (c.base p.grossSalary).mul c.employerRate = .ok due
      ∧ p.employerContributions.get? c.scheme = some (rounding.round due)
  /-- There is no share of anything but a scheme. -/
  schemes : ∀ name, name ∈ p.contributions.names
    ↔ name ∈ s.contributions.map (·.scheme)
  employerSchemes : ∀ name, name ∈ p.employerContributions.names
    ↔ name ∈ s.contributions.map (·.scheme)
  taxable : p.taxableIncome.toRat = match s.incomeTax.base with
    | .gross => p.grossSalary.toRat
    | .grossLessEmployeeContributions =>
      p.grossSalary.toRat - total p.contributions.values
  tax : ∃ due, s.incomeTax.marginalTax p.taxableIncome = .ok due
    ∧ p.incomeTax ≈ rounding.round due
  deductions : ∃ dailyRate a, s.dailyRate r.baseSalary = .ok dailyRate
    ∧ Adjustment.compute r.attendance dailyRate s.attendance s.dailyHours
      = .ok a
    ∧ p.totalDeductions.toRat = total r.deductions.values
      + (rounding.round a.delayPenalty).toRat
      + (rounding.round a.absenceDeduction).toRat
  net : p.netSalary.toRat = p.grossSalary.toRat - p.incomeTax.toRat
    - total p.contributions.values - p.totalDeductions.toRat
  net_nonneg : 0 ≤ p.netSalary.toRat
  deductions_le : p.totalDeductions.toRat ≤ p.grossSalary.toRat

variable {r : Request} {s : Snapshot} {rounding : Rounding}

-- ================================================================ stages

namespace Stages

/-- Stages of an accepted request whose gross is small enough. -/
structure Modest (st : Stages r s rounding) : Prop where
  snapshot : s.Proper
  request : Accepted r
  inLedger : r.InLedger
  places : rounding.places ≤ 4
  gross_lt : st.gross.toRat < 10 ^ 20

variable {st : Stages r s rounding}

theorem Modest.payable_overtime (h : st.Modest) :
    Payable (st.overtime.lines.map (·.amount)) := by
  rw [(Overtime.rounded_eq_ok st.overtime_ok).2.1]
  exact Overtime.payable_rounded h.places
    (Overtime.amount_nonneg h.snapshot.overtime st.exactOvertime_ok)

/-- The gross is the exact sum of what it is made of. -/
theorem Modest.gross_eq (h : st.Modest) : st.gross.toRat
    = r.baseSalary.toRat + total r.allowances.values
      + total (st.overtime.lines.map (·.amount)) ∧ Held st.gross := by
  have hlt := h.gross_lt
  have hsalary := h.request.held_salary h.inLedger
  have hpay := h.request.payable_allowances h.inLedger
  have hsum := (Overtime.rounded_eq_ok st.overtime_ok).2.2
  have hallowances : 0 ≤ st.allowances.toRat := toRat_sum_nonneg
    h.request.allowances_nonneg st.allowances_ok
  have hovertime : 0 ≤ st.overtime.total.toRat := toRat_sum_nonneg
    (fun a ha => (h.payable_overtime a ha).nonneg) hsum
  have hfixed := toRat_le_add_left hallowances st.fixedPay_ok
  have hpart := toRat_le_add_right hsalary.nonneg st.fixedPay_ok
  have hgross := toRat_le_add_left hovertime st.gross_ok
  have hrest := toRat_le_add_right (hallowances.trans hpart) st.gross_ok
  obtain ⟨ha, hheld⟩ := hpay.sum st.allowances_ok (by linarith)
  obtain ⟨hf, hheldf⟩ := hsalary.add hheld st.fixedPay_ok (by linarith)
  obtain ⟨ho, hheldo⟩ := h.payable_overtime.sum hsum (by linarith)
  obtain ⟨hg, hheldg⟩ := hheldf.add hheldo st.gross_ok (by linarith)
  exact ⟨by rw [hg, hf, ha, ho], hheldg⟩

theorem Modest.payable_withheld (h : st.Modest) :
    Payable (st.contributions.lines.map (·.employeeAmount)) :=
  Contributions.payable_rounded h.places h.snapshot.contributions
    st.contributions_ok

theorem Modest.withheld_nonneg (h : st.Modest) : 0 ≤ st.withheld.toRat :=
  toRat_sum_nonneg (fun a ha => (h.payable_withheld a ha).nonneg)
    st.withheld_ok

theorem Modest.held_tax (h : st.Modest) : Held st.tax.tax :=
  rounding.held_round h.places (s.incomeTax.assess_nonneg st.tax_ok)

theorem Modest.held_adjustment (h : st.Modest) :
    Held st.adjustment.delayPenalty
      ∧ Held st.adjustment.absenceDeduction := by
  obtain ⟨hpenalty, habsence⟩ := Adjustment.compute_nonneg
    h.snapshot.attendance st.adjustment_ok
  exact ⟨rounding.held_round h.places hpenalty,
    rounding.held_round h.places habsence⟩

/-- The schemes of the lines have names of their own. -/
theorem schemes_eq (st : Stages r s rounding) :
    st.contributions.lines.map (·.scheme)
      = s.contributions.map (·.scheme) := by
  rw [contributions, Contributions.scheme_rounded,
    Contributions.map_scheme st.contributions_ok]

theorem Modest.schemes_nodup (h : st.Modest) :
    (st.contributions.lines.map (·.scheme)).Nodup := by
  rw [st.schemes_eq]
  exact h.snapshot.schemes

/-- Every scheme has a line of its rounded shares. -/
theorem exists_rounded_line (st : Stages r s rounding)
    {c : ContributionRate} (hc : c ∈ s.contributions) :
    ∃ l ∈ st.contributions.lines, l.scheme = c.scheme
      ∧ (∃ due, (c.base st.gross).mul c.employeeRate = .ok due
        ∧ l.employeeAmount = rounding.round due)
      ∧ ∃ due, (c.base st.gross).mul c.employerRate = .ok due
        ∧ l.employerAmount = rounding.round due := by
  obtain ⟨l, hl, hline⟩ :=
    Contributions.exists_mem_line st.contributions_ok hc
  obtain ⟨hscheme, hemployee, hemployer⟩ :=
    ContributionRate.line_eq_ok hline
  refine ⟨_, List.mem_map.2 ⟨l, hl, rfl⟩, hscheme, ?_, ?_⟩
  · exact ⟨_, hemployee, rfl⟩
  · exact ⟨_, hemployer, rfl⟩

end Stages

-- ============================================================ settlement

namespace Settlement

variable {st : Stages r s rounding} {t : Settlement st}

/-- What is deducted is the exact sum of its parts. -/
theorem deductions_eq (t : Settlement st) (h : st.Modest) :
    t.deductions.toRat = total r.deductions.values
        + st.adjustment.delayPenalty.toRat
        + st.adjustment.absenceDeduction.toRat
      ∧ Held t.deductions := by
  have hlt := h.gross_lt
  have hle := t.deductions_le
  obtain ⟨hpenalty, habsence⟩ := h.held_adjustment
  have hexplicit : 0 ≤ t.explicit.toRat :=
    toRat_sum_nonneg h.request.deductions_nonneg t.explicit_ok
  have hpart := toRat_le_add_left habsence.nonneg t.adjusted_ok
  have hadjusted := hpenalty.nonneg.trans hpart
  have hfirst := toRat_le_add_left hadjusted t.deductions_ok
  have hsecond := toRat_le_add_right hexplicit t.deductions_ok
  obtain ⟨he, hheld⟩ := (h.request.payable_deductions h.inLedger).sum
    t.explicit_ok (by linarith)
  obtain ⟨ha, hheld'⟩ := hpenalty.add habsence t.adjusted_ok (by linarith)
  obtain ⟨hd, hheldd⟩ := hheld.add hheld' t.deductions_ok (by linarith)
  refine ⟨?_, hheldd⟩
  rw [hd, he, ha, add_assoc]

/-- Tax and contributions exceed the gross by one at most. -/
theorem taken_le (t : Settlement st) (h : st.Modest) :
    st.tax.tax.toRat ≤ st.gross.toRat + 1
      ∧ st.withheld.toRat ≤ st.gross.toRat + 1 := by
  have hdeductions := (t.deductions_eq h).2.nonneg
  have hnet := t.net_nonneg.trans (toRat_sub_le t.net_ok hdeductions)
  have hafter := hnet.trans
    (toRat_sub_le t.afterContributions_ok h.withheld_nonneg)
  have hle := toRat_sub_le t.afterTax_ok h.held_tax.nonneg
  refine ⟨le_add_one_of_sub t.afterTax_ok hafter, ?_⟩
  have := le_add_one_of_sub t.afterContributions_ok hnet
  linarith

/-- What is withheld is the exact total of the shares. -/
theorem withheld_eq (t : Settlement st) (h : st.Modest) :
    st.withheld.toRat
        = total (st.contributions.lines.map (·.employeeAmount))
      ∧ Held st.withheld := by
  have hlt := h.gross_lt
  obtain ⟨-, hle⟩ := t.taken_le h
  exact h.payable_withheld.sum st.withheld_ok (by linarith)

/-- The net is what is left of the gross. -/
theorem net_eq (t : Settlement st) (h : st.Modest) :
    t.net.toRat = st.gross.toRat - st.tax.tax.toRat - st.withheld.toRat
      - t.deductions.toRat := by
  have hlt := h.gross_lt
  obtain ⟨htax, hwithheld⟩ := t.taken_le h
  have hgross := h.gross_eq.2
  have hheld := (t.withheld_eq h).2
  have hdeductions := (t.deductions_eq h).2
  have hle := t.deductions_le
  have h₁ := hgross.nonneg
  have h₂ := h.held_tax.nonneg
  have h₃ := hheld.nonneg
  have h₄ := hdeductions.nonneg
  have hafterTax := sub_exact t.afterTax_ok hgross.inLedger
    h.held_tax.inLedger (abs_le.2 ⟨by linarith, by linarith⟩)
  have hafter := sub_exact t.afterContributions_ok
    (hafterTax ▸ hgross.inLedger.sub h.held_tax.inLedger) hheld.inLedger
    (by rw [hafterTax]; exact abs_le.2 ⟨by linarith, by linarith⟩)
  have hnet := sub_exact t.net_ok
    (hafter ▸ (hafterTax ▸ hgross.inLedger.sub
      h.held_tax.inLedger).sub hheld.inLedger) hdeductions.inLedger
    (by rw [hafter, hafterTax]; exact abs_le.2 ⟨by linarith, by linarith⟩)
  rw [hnet, hafter, hafterTax]

theorem taxable_eq (t : Settlement st) (h : st.Modest) :
    st.taxable.toRat = match s.incomeTax.base with
      | .gross => st.gross.toRat
      | .grossLessEmployeeContributions =>
        st.gross.toRat - st.withheld.toRat := by
  have hok := st.taxable_ok
  cases hbase : s.incomeTax.base with
  | gross =>
      rw [hbase] at hok
      rw [← Except.ok.inj hok]
  | grossLessEmployeeContributions =>
      rw [hbase] at hok
      have hlt := h.gross_lt
      obtain ⟨-, hwithheld⟩ := t.taken_le h
      have hgross := h.gross_eq.2
      have hheld := (t.withheld_eq h).2
      have h₁ := hgross.nonneg
      have h₂ := hheld.nonneg
      exact sub_exact hok hgross.inLedger hheld.inLedger
        (abs_le.2 ⟨by linarith, by linarith⟩)

/-- The payslip of a settlement says what the rules say. -/
theorem statutory (t : Settlement st) (h : st.Modest) :
    Statutory t.payslip r s rounding := by
  have hshares : total t.payslip.contributions.values
      = st.withheld.toRat := by
    rw [(t.withheld_eq h).1]
    exact Contributions.total_byScheme h.schemes_nodup
  obtain ⟨htaxable, due, hdue, hequiv⟩ :=
    s.incomeTax.exists_marginalTax st.tax_ok
  have hincome : t.payslip.taxableIncome = st.taxable := htaxable
  refine {
    gross := ?_
    contributions := fun c hc => ?_
    employerContributions := fun c hc => ?_
    schemes := fun name => ?_
    employerSchemes := fun name => ?_
    taxable := ?_
    tax := ⟨due, by rw [hincome]; exact hdue, ?_⟩
    deductions := ⟨st.dailyRate, st.exactAdjustment, st.dailyRate_ok,
      st.adjustment_ok, (t.deductions_eq h).1⟩
    net := ?_
    net_nonneg := t.net_nonneg
    deductions_le := t.deductions_le }
  · show st.gross.toRat
      = _ + _ + total st.overtime.amountByCategory.values
    rw [Overtime.values_amountByCategory
      (st.categories_sublist h.snapshot)]
    exact h.gross_eq.1
  · obtain ⟨l, hl, hscheme, ⟨due, hdue, hamount⟩, -⟩ :=
      st.exists_rounded_line hc
    refine ⟨due, hdue, ?_⟩
    rw [← hscheme, ← hamount]
    exact Contributions.get?_byScheme h.schemes_nodup hl
  · obtain ⟨l, hl, hscheme, -, due, hdue, hamount⟩ :=
      st.exists_rounded_line hc
    refine ⟨due, hdue, ?_⟩
    rw [← hscheme, ← hamount]
    exact Contributions.get?_byScheme h.schemes_nodup hl
  · rw [← st.schemes_eq]
    exact Contributions.mem_names_byScheme h.schemes_nodup
  · rw [← st.schemes_eq]
    exact Contributions.mem_names_byScheme h.schemes_nodup
  · rw [hshares, hincome]
    exact t.taxable_eq h
  · show rounding.round st.exactTax.tax ≈ rounding.round due
    rw [equiv_iff_toRat, Rounding.toRat_round, Rounding.toRat_round,
      equiv_iff_toRat.1 hequiv]
  · rw [hshares]
    exact t.net_eq h

end Settlement

-- ============================================================= payslips

/-- A payslip is the statutory one under the rules in force on the first
day of its period. -/
theorem calculate_statutory (book : RuleBook)
    (hscale : book.jurisdiction.currencyScale ≤ 4) (r : Request)
    (hr : r.InLedger) (asOf : Date) {p : Payslip}
    (h : calculate r book asOf = .ok p)
    (hlt : p.grossSalary.toRat < 10 ^ 20) :
    ∃ s ∈ book.snapshots, s.effectiveDate ≤ r.period.firstDay
      ∧ (∀ s' ∈ book.snapshots, s'.effectiveDate ≤ r.period.firstDay →
        s' = s ∨ s'.effectiveDate < s.effectiveDate)
      ∧ p.rulesEffectiveDate = s.effectiveDate
      ∧ Statutory p r s book.rounding := by
  unfold calculate at h
  split at h
  · cases h
  · rename_i s hs
    obtain ⟨hmem, hle, hlast⟩ := RuleBook.snapshotFor_eq_ok hs
    have hproper := Snapshot.proper_of_check (book.checked s hmem)
    obtain ⟨report, hreport, hvalid, st, t, rfl⟩ :=
      (calculateWith_eq_ok hproper).1 h
    refine ⟨s, hmem, hle, hlast, rfl, t.statutory ?_⟩
    exact ⟨hproper, accepted_of_valid hreport hvalid, hr, hscale, hlt⟩

/-- A month above every ceiling, with overtime beyond its cap, a severe
delay and days of absence. -/
def Senegal.manager : Request :=
  { employeeId := "M-1"
    period := .of 2024 5
    baseSalary := 1200000.50
    regularHours := 168
    overtimeHours := { regular := some 40.5, holiday := some 8 }
    allowances :=
      .ofList [("transport", 26000), ("housing", 90000)]
    deductions := .ofList [("loan", 15000.25)]
    attendance := { delayMinutes := 90, absenceDays := 1.5 } }

/-- The manager's payslip is the statutory one. -/
theorem calculate_statutory_manager :
    Senegal.manager.InLedger ∧ ∃ p,
      calculate Senegal.manager Senegal.book
        { year := 2024, month := 6, day := 3 } = .ok p
      ∧ p.grossSalary.toRat < 10 ^ 20
      ∧ ∃ s ∈ Senegal.book.snapshots,
        s.effectiveDate ≤ Senegal.manager.period.firstDay
        ∧ (∀ s' ∈ Senegal.book.snapshots,
          s'.effectiveDate ≤ Senegal.manager.period.firstDay →
          s' = s ∨ s'.effectiveDate < s.effectiveDate)
        ∧ p.rulesEffectiveDate = s.effectiveDate
        ∧ Statutory p Senegal.manager s Senegal.book.rounding := by
  have hledger : Senegal.manager.InLedger :=
    ⟨by decide +kernel, by decide +kernel, by decide +kernel⟩
  have hgross : ((calculate Senegal.manager Senegal.book
      { year := 2024, month := 6, day := 3 }).toOption.map
        fun p => decide (p.grossSalary.toRat < 10 ^ 20)) = some true := by
    decide +kernel
  refine ⟨hledger, ?_⟩
  cases hp : calculate Senegal.manager Senegal.book
      { year := 2024, month := 6, day := 3 } with
  | error e =>
      rw [hp] at hgross
      cases hgross
  | ok p =>
      rw [hp] at hgross
      have hlt : p.grossSalary.toRat < 10 ^ 20 := by
        simpa [Except.toOption] using hgross
      exact ⟨p, rfl, hlt, calculate_statutory Senegal.book (by decide) _
        hledger _ hp hlt⟩

end Payroll
