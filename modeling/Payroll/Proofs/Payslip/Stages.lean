/-
The calculation taken apart. `calculateWith` is one chain of binds, and
every argument about it is about the amounts on the way. They are named
here once: `Stages` holds the amounts up to the parts of the payslip,
`Settlement` those that put the parts together, each with the equation
that produced it.

`calculateWith_eq_ok` says that a payslip comes from a valid report,
stages and a settlement, and that these make one. Read forwards it
builds a calculation out of its parts; read backwards it opens one.

The gross, the allowances and the withheld contributions are computed a
second time when the payslip is put together. They are the same
computations, so a settlement speaks of the amounts of the stages. Only
the overtime total is compared with a sum formed in another way, over
the amounts by category, which are the lines again
(`Stages.overtimeSum`).
-/
import Payroll.Proofs.RuleBook
import Payroll.Proofs.Snapshot

namespace Payroll

open Decimal

-- =============================================================== figures

/-- How the figures of a payslip are formed from its parts. -/
structure Figures.Formed (f : Figures) : Prop where
  overtime : ∃ sum, Decimal.sum f.overtime.amountByCategory.values = .ok sum
    ∧ sum ≈ f.overtime.total
  totalAllowances : f.request.totalAllowances = .ok f.totalAllowances
  gross : ∃ fixedPay, f.request.baseSalary.add f.totalAllowances
      = .ok fixedPay
    ∧ fixedPay.add f.overtime.total = .ok f.gross
  totalContributions : f.contributions.employeeTotal
    = .ok f.totalContributions
  explicitDeductions : f.request.totalDeductions = .ok f.explicitDeductions
  totalDeductions : ∃ adjusted, f.adjustment.total = .ok adjusted
    ∧ f.explicitDeductions.add adjusted = .ok f.totalDeductions
  deductions_le : f.totalDeductions.toRat ≤ f.gross.toRat
  net : ∃ afterTax afterContributions,
    f.gross.sub f.tax.tax = .ok afterTax
      ∧ afterTax.sub f.totalContributions = .ok afterContributions
      ∧ afterContributions.sub f.totalDeductions = .ok f.net
  net_nonneg : 0 ≤ f.net.toRat

/-- Figures are computed from parts that they keep. -/
theorem Figures.compute_eq_ok {r : Request} {tax : TaxAssessment}
    {c : Contributions} {o : Overtime} {adjustment : Adjustment}
    {f : Figures} : Figures.compute r tax c o adjustment = .ok f
      ↔ f.Formed ∧ r = f.request ∧ tax = f.tax ∧ c = f.contributions
        ∧ o = f.overtime ∧ adjustment = f.adjustment := by
  unfold Figures.compute
  constructor
  · intro h
    obtain ⟨overtimeSum, hovertime, h⟩ := bind_eq_ok.1 h
    rw [liftM_fault_eq_ok] at hovertime
    split at h
    · cases h
    · rename_i hagree
      obtain ⟨allowances, hallowances, h⟩ := bind_eq_ok.1 h
      obtain ⟨fixedPay, hfixedPay, h⟩ := bind_eq_ok.1 h
      obtain ⟨gross, hgross, h⟩ := bind_eq_ok.1 h
      obtain ⟨withheld, hwithheld, h⟩ := bind_eq_ok.1 h
      obtain ⟨explicit, hexplicit, h⟩ := bind_eq_ok.1 h
      obtain ⟨adjusted, hadjusted, h⟩ := bind_eq_ok.1 h
      obtain ⟨deductions, hdeductions, h⟩ := bind_eq_ok.1 h
      rw [liftM_fault_eq_ok] at hallowances hfixedPay hgross hwithheld
      rw [liftM_fault_eq_ok] at hexplicit hadjusted hdeductions
      split at h
      · cases h
      · rename_i hle
        obtain ⟨afterTax, hafterTax, h⟩ := bind_eq_ok.1 h
        obtain ⟨afterContributions, hafterContributions, h⟩ :=
          bind_eq_ok.1 h
        obtain ⟨net, hnet, h⟩ := bind_eq_ok.1 h
        rw [liftM_fault_eq_ok] at hafterTax hafterContributions hnet
        split at h
        · cases h
        · rename_i hnonneg
          rw [lt_iff_toRat, not_lt] at hle hnonneg
          rw [toRat_zero] at hnonneg
          cases h
          exact ⟨{
            overtime := ⟨overtimeSum, hovertime, not_not.1 hagree⟩
            totalAllowances := hallowances
            gross := ⟨fixedPay, hfixedPay, hgross⟩
            totalContributions := hwithheld
            explicitDeductions := hexplicit
            totalDeductions := ⟨adjusted, hadjusted, hdeductions⟩
            deductions_le := hle
            net := ⟨afterTax, afterContributions, hafterTax,
              hafterContributions, hnet⟩
            net_nonneg := hnonneg }, rfl, rfl, rfl, rfl, rfl⟩
  · rintro ⟨h, rfl, rfl, rfl, rfl, rfl⟩
    obtain ⟨overtimeSum, hovertime, hagree⟩ := h.overtime
    obtain ⟨fixedPay, hfixedPay, hgross⟩ := h.gross
    obtain ⟨adjusted, hadjusted, hdeductions⟩ := h.totalDeductions
    obtain ⟨afterTax, afterContributions, hafterTax, hafterContributions,
      hnet⟩ := h.net
    have hle : ¬f.gross < f.totalDeductions := by
      rw [lt_iff_toRat, not_lt]
      exact h.deductions_le
    have hnonneg : ¬f.net < .zero := by
      rw [lt_iff_toRat, toRat_zero, not_lt]
      exact h.net_nonneg
    simp only [hovertime, h.totalAllowances, hfixedPay, hgross,
      h.totalContributions, h.explicitDeductions, hadjusted, hdeductions,
      hafterTax, hafterContributions, hnet, liftM_ok, ok_bind,
      if_neg (not_not.2 hagree), if_neg hle, if_neg hnonneg]
    rfl

-- ================================================================ stages

/-- The amounts on the way from a request to the parts of its
payslip. -/
structure Stages (r : Request) (s : Snapshot) (rounding : Rounding) where
  hourlyRate : Decimal
  exactOvertime : Overtime
  overtime : Overtime
  allowances : Decimal
  fixedPay : Decimal
  gross : Decimal
  exactContributions : Contributions
  withheld : Decimal
  taxable : Decimal
  exactTax : TaxAssessment
  dailyRate : Decimal
  exactAdjustment : Adjustment
  hourlyRate_ok : s.hourlyRate r.baseSalary = .ok hourlyRate
  exactOvertime_ok : Overtime.compute r.overtimeHours hourlyRate s.overtime
    = .ok exactOvertime
  overtime_ok : exactOvertime.rounded rounding = .ok overtime
  allowances_ok : r.totalAllowances = .ok allowances
  fixedPay_ok : r.baseSalary.add allowances = .ok fixedPay
  gross_ok : fixedPay.add overtime.total = .ok gross
  contributions_ok : Contributions.compute gross s.contributions
    = .ok exactContributions
  withheld_ok : (exactContributions.rounded rounding).employeeTotal
    = .ok withheld
  taxable_ok : s.incomeTax.base.taxableIncome gross withheld = .ok taxable
  tax_ok : s.incomeTax.assess taxable = .ok exactTax
  dailyRate_ok : s.dailyRate r.baseSalary = .ok dailyRate
  adjustment_ok : Adjustment.compute r.attendance dailyRate s.attendance
    s.dailyHours = .ok exactAdjustment

namespace Stages

variable {r : Request} {s : Snapshot} {rounding : Rounding}
  (st : Stages r s rounding)

def tax : TaxAssessment := st.exactTax.rounded rounding

def contributions : Contributions := st.exactContributions.rounded rounding

def adjustment : Adjustment := st.exactAdjustment.rounded rounding

/-- The payslip that the parts are put together to. -/
def assembled : Except Failure Payslip :=
  Payslip.assemble r st.tax st.contributions st.overtime st.adjustment
    s.effectiveDate

/-- The lines of the rounded overtime stand in reporting order. -/
theorem categories_sublist (hs : s.Proper) :
    (st.overtime.lines.map (·.category)).Sublist Category.all := by
  rw [(Overtime.rounded_eq_ok st.overtime_ok).1]
  exact Overtime.categories_sublist hs.overtime st.exactOvertime_ok

/-- The amounts by category sum up to the total of the lines. -/
theorem overtimeSum (hs : s.Proper) :
    Decimal.sum st.overtime.amountByCategory.values
      = .ok st.overtime.total := by
  rw [Overtime.values_amountByCategory (st.categories_sublist hs)]
  exact (Overtime.rounded_eq_ok st.overtime_ok).2.2

end Stages

-- ============================================================ settlement

/-- The amounts that put the parts of a payslip together. -/
structure Settlement {r : Request} {s : Snapshot} {rounding : Rounding}
    (st : Stages r s rounding) where
  explicit : Decimal
  adjusted : Decimal
  deductions : Decimal
  afterTax : Decimal
  afterContributions : Decimal
  net : Decimal
  explicit_ok : r.totalDeductions = .ok explicit
  adjusted_ok : st.adjustment.total = .ok adjusted
  deductions_ok : explicit.add adjusted = .ok deductions
  deductions_le : deductions.toRat ≤ st.gross.toRat
  afterTax_ok : st.gross.sub st.tax.tax = .ok afterTax
  afterContributions_ok : afterTax.sub st.withheld = .ok afterContributions
  net_ok : afterContributions.sub deductions = .ok net
  net_nonneg : 0 ≤ net.toRat

namespace Settlement

variable {r : Request} {s : Snapshot} {rounding : Rounding}
  {st : Stages r s rounding}

/-- The figures that a settlement comes to. -/
def figures (t : Settlement st) : Figures :=
  { request := r
    tax := st.tax
    contributions := st.contributions
    overtime := st.overtime
    adjustment := st.adjustment
    totalAllowances := st.allowances
    gross := st.gross
    totalContributions := st.withheld
    explicitDeductions := t.explicit
    totalDeductions := t.deductions
    net := t.net }

def payslip (t : Settlement st) : Payslip :=
  t.figures.payslip s.effectiveDate

end Settlement

namespace Stages

variable {r : Request} {s : Snapshot} {rounding : Rounding}
  (st : Stages r s rounding)

/-- Figures that are formed from the parts are those of a settlement,
whatever the rules. -/
theorem exists_settlement_of_figures {f : Figures}
    (h : Figures.compute r st.tax st.contributions st.overtime st.adjustment
      = .ok f) : ∃ t : Settlement st, t.figures = f := by
  obtain ⟨h, hparts⟩ := Figures.compute_eq_ok.1 h
  -- gross, allowances and withheld shares are computed a second time
  obtain ⟨_, _, _, _, _, allowances, gross, withheld, explicit, deductions,
    net⟩ := f
  obtain ⟨rfl, rfl, rfl, rfl, rfl⟩ := hparts
  cases h.totalAllowances.symm.trans st.allowances_ok
  obtain ⟨fixedPay, hfixedPay, hgross⟩ := h.gross
  cases hfixedPay.symm.trans st.fixedPay_ok
  cases hgross.symm.trans st.gross_ok
  cases h.totalContributions.symm.trans st.withheld_ok
  obtain ⟨adjusted, hadjusted, hdeductions⟩ := h.totalDeductions
  obtain ⟨afterTax, afterContributions, hafterTax, hafterContributions,
    hnet⟩ := h.net
  exact ⟨{
    explicit, adjusted, deductions, afterTax, afterContributions, net
    explicit_ok := h.explicitDeductions
    adjusted_ok := hadjusted
    deductions_ok := hdeductions
    deductions_le := h.deductions_le
    afterTax_ok := hafterTax
    afterContributions_ok := hafterContributions
    net_ok := hnet
    net_nonneg := h.net_nonneg }, rfl⟩

/-- Under proper rules every settlement comes to figures. -/
theorem figures_eq_ok (hs : s.Proper) {f : Figures} :
    Figures.compute r st.tax st.contributions st.overtime st.adjustment
      = .ok f ↔ ∃ t : Settlement st, t.figures = f := by
  refine ⟨st.exists_settlement_of_figures, ?_⟩
  rintro ⟨t, rfl⟩
  exact Figures.compute_eq_ok.2 ⟨{
    overtime := ⟨_, st.overtimeSum hs, equiv_refl _⟩
    totalAllowances := st.allowances_ok
    gross := ⟨_, st.fixedPay_ok, st.gross_ok⟩
    totalContributions := st.withheld_ok
    explicitDeductions := t.explicit_ok
    totalDeductions := ⟨_, t.adjusted_ok, t.deductions_ok⟩
    deductions_le := t.deductions_le
    net := ⟨_, _, t.afterTax_ok, t.afterContributions_ok, t.net_ok⟩
    net_nonneg := t.net_nonneg }, rfl, rfl, rfl, rfl, rfl⟩

theorem exists_settlement_of_assembled {p : Payslip}
    (h : st.assembled = .ok p) : ∃ t : Settlement st, t.payslip = p := by
  obtain ⟨f, hf, h⟩ := bind_eq_ok.1 h
  obtain ⟨t, rfl⟩ := st.exists_settlement_of_figures hf
  cases h
  exact ⟨t, rfl⟩

theorem assembled_eq_ok (hs : s.Proper) {p : Payslip} :
    st.assembled = .ok p ↔ ∃ t : Settlement st, t.payslip = p := by
  refine ⟨st.exists_settlement_of_assembled, ?_⟩
  rintro ⟨t, rfl⟩
  exact bind_eq_ok.2 ⟨t.figures, (st.figures_eq_ok hs).2 ⟨t, rfl⟩, rfl⟩

end Stages

namespace Stages

variable {r : Request} {s : Snapshot} {rounding : Rounding}

/-- Parts that are amounts of a ledger can be put together where the
gross covers all that is taken off, and no step of it is rounded. -/
theorem exists_settlement (st : Stages r s rounding) {explicit : Decimal}
    (hexplicit : r.totalDeductions = .ok explicit) (hasked : Held explicit)
    (hgross : Held st.gross) (hlt : st.gross.toRat ≤ 10 ^ 23)
    (htax : Held st.tax.tax) (hwithheld : Held st.withheld)
    (hpenalty : Held st.adjustment.delayPenalty)
    (habsence : Held st.adjustment.absenceDeduction)
    (hle : st.tax.tax.toRat + st.withheld.toRat + (explicit.toRat
      + (st.adjustment.delayPenalty.toRat
        + st.adjustment.absenceDeduction.toRat)) ≤ st.gross.toRat) :
    ∃ t : Settlement st, t.net.toRat = st.gross.toRat - st.tax.tax.toRat
      - st.withheld.toRat - (explicit.toRat
        + (st.adjustment.delayPenalty.toRat
          + st.adjustment.absenceDeduction.toRat)) := by
  have h₁ := hasked.nonneg
  have h₂ := htax.nonneg
  have h₃ := hwithheld.nonneg
  have h₄ := hpenalty.nonneg
  have h₅ := habsence.nonneg
  obtain ⟨adjusted, hadjusted, hvalue, hheld⟩ :=
    hpenalty.exists_add habsence (by linarith)
  obtain ⟨deductions, hdeductions, hvalue', hheld'⟩ :=
    hasked.exists_add hheld (by linarith)
  rw [hvalue] at hvalue'
  -- what is left after each step stays at or above what is still to come
  obtain ⟨afterTax, hafterTax, hleft⟩ := exists_sub hgross.inLedger
    htax.inLedger (by rw [abs_of_nonneg (by linarith)]; linarith)
  have hledger := hleft ▸ hgross.inLedger.sub htax.inLedger
  obtain ⟨afterContributions, hafterContributions, hleft'⟩ := exists_sub
    hledger hwithheld.inLedger
    (by rw [hleft, abs_of_nonneg (by linarith)]; linarith)
  have hledger' := hleft' ▸ hledger.sub hwithheld.inLedger
  obtain ⟨net, hnet, hleft''⟩ := exists_sub hledger' hheld'.inLedger
    (by rw [hleft', hleft, abs_of_nonneg (by linarith)]; linarith)
  rw [hleft', hleft, hvalue'] at hleft''
  exact ⟨{
    explicit, adjusted, deductions, afterTax, afterContributions, net
    explicit_ok := hexplicit
    adjusted_ok := hadjusted
    deductions_ok := hdeductions
    deductions_le := by linarith
    afterTax_ok := hafterTax
    afterContributions_ok := hafterContributions
    net_ok := hnet
    net_nonneg := by linarith }, hleft''⟩

end Stages

-- ======================================================= the calculation

/-- A payslip comes from a valid report and stages that can be put
together. -/
theorem calculateWith_eq_ok_assembled {r : Request} {s : Snapshot}
    {rounding : Rounding} {asOf : Date} {p : Payslip} :
    calculateWith r s rounding asOf = .ok p ↔
      ∃ report, validate r s asOf = .ok report ∧ report.valid = true
        ∧ ∃ st : Stages r s rounding, st.assembled = .ok p := by
  unfold calculateWith
  constructor
  · intro h
    obtain ⟨report, hreport, h⟩ := bind_eq_ok.1 h
    rw [liftM_crash_eq_ok] at hreport
    split at h
    · cases h
    · rename_i hvalid
      obtain ⟨hourlyRate, hhourly, h⟩ := bind_eq_ok.1 h
      obtain ⟨exactOvertime, hexactOvertime, h⟩ := bind_eq_ok.1 h
      obtain ⟨overtime, hovertime, h⟩ := bind_eq_ok.1 h
      obtain ⟨allowances, hallowances, h⟩ := bind_eq_ok.1 h
      obtain ⟨fixedPay, hfixedPay, h⟩ := bind_eq_ok.1 h
      obtain ⟨gross, hgross, h⟩ := bind_eq_ok.1 h
      obtain ⟨exactContributions, hcontributions, h⟩ := bind_eq_ok.1 h
      obtain ⟨withheld, hwithheld, h⟩ := bind_eq_ok.1 h
      obtain ⟨taxable, htaxable, h⟩ := bind_eq_ok.1 h
      obtain ⟨exactTax, htax, h⟩ := bind_eq_ok.1 h
      obtain ⟨dailyRate, hdaily, h⟩ := bind_eq_ok.1 h
      obtain ⟨exactAdjustment, hadjustment, h⟩ := bind_eq_ok.1 h
      rw [liftM_fault_eq_ok] at hhourly hovertime hallowances hfixedPay
      rw [liftM_fault_eq_ok] at hgross hwithheld htaxable hdaily
      exact ⟨report, hreport, not_not.1 hvalid, {
        hourlyRate, exactOvertime, overtime, allowances, fixedPay, gross
        exactContributions, withheld, taxable, exactTax, dailyRate
        exactAdjustment
        hourlyRate_ok := hhourly
        exactOvertime_ok := hexactOvertime
        overtime_ok := hovertime
        allowances_ok := hallowances
        fixedPay_ok := hfixedPay
        gross_ok := hgross
        contributions_ok := hcontributions
        withheld_ok := hwithheld
        taxable_ok := htaxable
        tax_ok := htax
        dailyRate_ok := hdaily
        adjustment_ok := hadjustment }, h⟩
  · rintro ⟨report, hreport, hvalid, st, hassembled⟩
    simp only [hreport, liftM_crash_ok, ok_bind, hvalid,
      not_true_eq_false, if_false, st.hourlyRate_ok, st.exactOvertime_ok,
      st.overtime_ok, st.allowances_ok, st.fixedPay_ok, st.gross_ok,
      st.contributions_ok, st.withheld_ok, st.taxable_ok, st.tax_ok,
      st.dailyRate_ok, st.adjustment_ok, liftM_ok]
    exact hassembled

/-- A payslip comes from a valid report, stages and a settlement. -/
theorem calculateWith_eq_ok {r : Request} {s : Snapshot}
    {rounding : Rounding} {asOf : Date} {p : Payslip} (hs : s.Proper) :
    calculateWith r s rounding asOf = .ok p ↔
      ∃ report, validate r s asOf = .ok report ∧ report.valid = true
        ∧ ∃ (st : Stages r s rounding) (t : Settlement st),
          t.payslip = p := by
  simp only [calculateWith_eq_ok_assembled, Stages.assembled_eq_ok _ hs]

/-- A payslip of a book comes from stages and a settlement under one of
its snapshots. -/
theorem exists_settlement {r : Request} {book : RuleBook} {asOf : Date}
    {p : Payslip} (h : calculate r book asOf = .ok p) :
    ∃ s ∈ book.snapshots, ∃ (st : Stages r s book.rounding)
      (t : Settlement st), t.payslip = p := by
  unfold calculate at h
  split at h
  · cases h
  · rename_i s hs
    obtain ⟨hmem, -, -⟩ := RuleBook.snapshotFor_eq_ok hs
    obtain ⟨_, -, -, st, t, ht⟩ := (calculateWith_eq_ok
      (Snapshot.proper_of_check (book.checked s hmem))).1 h
    exact ⟨s, hmem, st, t, ht⟩

/-- A report that is not valid is the answer. -/
theorem calculateWith_of_not_valid {r : Request} {s : Snapshot}
    {rounding : Rounding} {asOf : Date} {report : Report}
    (h : validate r s asOf = .ok report) (hvalid : report.valid = false) :
    calculateWith r s rounding asOf = .error (.error (.rejected report)) := by
  unfold calculateWith
  simp only [h, hvalid, liftM_crash_ok, ok_bind, Bool.false_eq_true,
    not_false_eq_true, if_true]

end Payroll
