/-
What an employee earns does not depend on what is taken off. Deductions
and attendance are read by the validation and where the payslip is put
together; the gross, the contributions and the tax are computed without
them. So two requests that differ in nothing else come to stages that
agree up to the tax (`Stages.SameEarnings`), and what they differ in
shows on a payslip in the total of deductions, the net, the attendance
and what is said of these.

The net is what tax and contributions leave of the gross, less the total
of deductions. The first is one amount for both requests
(`Payslip.remainder`). So a net and its deductions add up to the same,
unless the subtraction had to round.

Nothing here needs rules that were checked.
-/
import Payroll.Proofs.Payslip.Balance
import Payroll.Proofs.Payslip.Trace
import Payroll.Proofs.Payslip.Twins

namespace Payroll

open Decimal

-- ============================================================== the trace

/-- The rules of the details that say what is taken off after tax and
contributions, and what is left. -/
def takesOff (id : String) : Bool :=
  Family.deduction.holds id || ["delay_penalty", "absence_deduction",
    "total_deductions", "net_salary"].contains id

namespace Figures

/-- The trace up to the tax. -/
def earnedTerms (f : Figures) : List Term :=
  f.earningTerms ++ f.contributions.lines.map (contributionTerm f.gross)
    ++ [f.taxableTerm, taxTerm f.tax]

/-- The trace behind the tax. -/
def takenTerms (f : Figures) : List Term :=
  f.request.deductions.entries.map deductionTerm
    ++ delayTerms f.adjustment ++ absenceTerms f.adjustment
    ++ [f.deductionsTerm, f.netTerm]

theorem terms_eq_earned (f : Figures) :
    f.terms = f.earnedTerms ++ f.takenTerms := by
  simp only [terms, earnedTerms, earningTerms, takenTerms,
    List.append_assoc]

theorem takesOff_of_mem_takenTerms (f : Figures) :
    ∀ t ∈ f.takenTerms, takesOff t.ruleId = true := by
  have hplain : ∀ id ∈ ["delay_penalty", "absence_deduction",
      "total_deductions", "net_salary"], takesOff id = true := by
    decide
  simp only [takenTerms, List.forall_mem_append]
  refine ⟨⟨⟨?_, ?_⟩, ?_⟩, ?_⟩
  · intro t ht
    obtain ⟨e, -, rfl⟩ := List.mem_map.1 ht
    have hid : (deductionTerm e).ruleId = Family.deduction.ruleId e.1 := rfl
    rw [takesOff, hid, Family.holds_ruleId]
    rfl
  · intro t ht
    unfold delayTerms at ht
    split at ht
    · cases ht
    · rw [List.mem_singleton.1 ht]
      exact hplain _ (by simp)
  · intro t ht
    unfold absenceTerms at ht
    split at ht
    · rw [List.mem_singleton.1 ht]
      exact hplain _ (by simp)
    · cases ht
  · intro t ht
    rw [List.mem_cons, List.mem_singleton] at ht
    rcases ht with rfl | rfl
    · exact hplain _ (by simp [deductionsTerm])
    · exact hplain _ (by simp [netTerm])

/-- The details of other rules are those up to the tax. -/
theorem filter_trace (f : Figures) :
    f.trace.filter (fun d => !takesOff d.ruleId)
      = (Term.numberFrom 0 f.earnedTerms).filter
        fun d => !takesOff d.ruleId := by
  have htaken : (Term.numberFrom (0 + f.earnedTerms.length)
      f.takenTerms).filter (fun d => !takesOff d.ruleId) = [] := by
    rw [List.filter_eq_nil_iff]
    intro d hd
    rw [Term.forall_mem_numberFrom (takesOff · = true)
      f.takesOff_of_mem_takenTerms d hd]
    exact Bool.false_ne_true
  rw [trace, Term.number_eq, terms_eq_earned, Term.numberFrom_append,
    List.filter_append, htaken, List.append_nil]

end Figures

-- ============================================================ the payslips

/-- Payslips that differ only in what is taken off: in the totals, in the
attendance and the warnings, and in the details of these. -/
structure Payslip.SameEarnings (p p' : Payslip) : Prop where
  rest : p' = { p with
    totalDeductions := p'.totalDeductions
    netSalary := p'.netSalary
    attendance := p'.attendance
    warnings := p'.warnings
    details := p'.details }
  details : p'.details.filter (fun d => !takesOff d.ruleId)
    = p.details.filter fun d => !takesOff d.ruleId

/-- What tax and contributions leave of the gross. -/
def Payslip.remainder (p : Payslip) (c : Contributions) :
    Except Fault Decimal := do
  let withheld ← c.employeeTotal
  let afterTax ← p.grossSalary.sub p.incomeTax
  afterTax.sub withheld

/-- Figures that differ in what is taken off show the same earnings. -/
theorem Figures.sameEarnings (f : Figures) (date : Date)
    (d : Named Decimal) (a : Attendance) (adjustment : Adjustment)
    (explicit total net : Decimal) :
    (f.payslip date).SameEarnings
      ({ f with
        request := { f.request with deductions := d, attendance := a }
        adjustment, explicitDeductions := explicit
        totalDeductions := total, net }.payslip date) where
  rest := rfl
  details := by
    refine (filter_trace _).trans ?_
    exact f.filter_trace.symm

-- ============================================================== the stages

variable {r : Request} {s : Snapshot} {rounding : Rounding}
  {d : Named Decimal} {a : Attendance}

/-- Stages of two requests that agree up to the tax. -/
structure Stages.SameEarnings {r r' : Request} (st : Stages r s rounding)
    (st' : Stages r' s rounding) : Prop where
  overtime : st'.overtime = st.overtime
  allowances : st'.allowances = st.allowances
  gross : st'.gross = st.gross
  contributions : st'.exactContributions = st.exactContributions
  withheld : st'.withheld = st.withheld
  tax : st'.exactTax = st.exactTax

/-- No stage up to the tax reads a deduction or the attendance. -/
theorem Stages.sameEarnings (st : Stages r s rounding)
    (st' : Stages { r with deductions := d, attendance := a } s rounding) :
    st.SameEarnings st' := by
  obtain ⟨hourlyRate, exactOvertime, overtime, allowances, fixedPay, gross,
    exactContributions, withheld, taxable, exactTax, _, _, hhourly, hexact,
    hovertime, hallowances, hfixedPay, hgross, hcontributions, hwithheld,
    htaxable, htax, -, -⟩ := st'
  -- each stage reads the ones before it, which are the same by then
  cases hhourly.symm.trans st.hourlyRate_ok
  cases hexact.symm.trans st.exactOvertime_ok
  cases hovertime.symm.trans st.overtime_ok
  cases hallowances.symm.trans st.allowances_ok
  cases hfixedPay.symm.trans st.fixedPay_ok
  cases hgross.symm.trans st.gross_ok
  cases hcontributions.symm.trans st.contributions_ok
  cases hwithheld.symm.trans st.withheld_ok
  cases htaxable.symm.trans st.taxable_ok
  cases htax.symm.trans st.tax_ok
  exact ⟨rfl, rfl, rfl, rfl, rfl, rfl⟩

/-- Settlements of such stages show the same earnings. -/
theorem Stages.SameEarnings.payslip {st : Stages r s rounding}
    {st' : Stages { r with deductions := d, attendance := a } s rounding}
    (h : st.SameEarnings st') (t : Settlement st) (t' : Settlement st') :
    t.payslip.SameEarnings t'.payslip := by
  have hfigures : t'.figures = { t.figures with
      request := { r with deductions := d, attendance := a }
      adjustment := st'.adjustment
      explicitDeductions := t'.explicit
      totalDeductions := t'.deductions
      net := t'.net } := by
    simp only [Settlement.figures, Stages.tax, Stages.contributions,
      h.overtime, h.allowances, h.gross, h.contributions, h.withheld, h.tax]
  show t.payslip.SameEarnings (t'.figures.payslip s.effectiveDate)
  rw [hfigures]
  exact t.figures.sameEarnings _ _ _ _ _ _ _

/-- A net is what is left before deductions, less these. -/
theorem Settlement.exists_remainder {st : Stages r s rounding}
    (t : Settlement st) : ∃ left,
      t.payslip.remainder st.contributions = .ok left
        ∧ left.sub t.payslip.totalDeductions = .ok t.payslip.netSalary :=
  ⟨t.afterContributions, bind_eq_ok.2 ⟨_, st.withheld_ok,
    bind_eq_ok.2 ⟨_, t.afterTax_ok, t.afterContributions_ok⟩⟩, t.net_ok⟩

-- ======================================================= the calculation

/-- Two requests that differ only in deductions and attendance are paid
the same earnings under any rules. What is left of the gross before
deductions is one amount, so where neither subtraction has to round, net
and deductions add up to it on both payslips. -/
theorem calculateWith_sameEarnings {r r' : Request}
    (hr : r' = { r with
      deductions := r'.deductions, attendance := r'.attendance })
    {s : Snapshot} {rounding : Rounding} {asOf : Date} {p p' : Payslip}
    (h : calculateWith r s rounding asOf = .ok p)
    (h' : calculateWith r' s rounding asOf = .ok p') :
    p.SameEarnings p'
      ∧ ∃ exact left,
        Contributions.compute p.grossSalary s.contributions = .ok exact
        ∧ p.remainder (exact.rounded rounding) = .ok left
        ∧ left.sub p.totalDeductions = .ok p.netSalary
        ∧ left.sub p'.totalDeductions = .ok p'.netSalary
        ∧ (Representable (left.toRat - p.totalDeductions.toRat) →
          Representable (left.toRat - p'.totalDeductions.toRat) →
            p.netSalary.toRat + p.totalDeductions.toRat
              = p'.netSalary.toRat + p'.totalDeductions.toRat) := by
  obtain ⟨d, a, rfl⟩ : ∃ d a,
      r' = { r with deductions := d, attendance := a } := ⟨_, _, hr⟩
  obtain ⟨-, -, -, st, hst⟩ := calculateWith_eq_ok_assembled.1 h
  obtain ⟨-, -, -, st', hst'⟩ := calculateWith_eq_ok_assembled.1 h'
  obtain ⟨t, rfl⟩ := st.exists_settlement_of_assembled hst
  obtain ⟨t', rfl⟩ := st'.exists_settlement_of_assembled hst'
  have hstages := st.sameEarnings st'
  have hsame := hstages.payslip t t'
  obtain ⟨left, hleft, hnet⟩ := t.exists_remainder
  obtain ⟨left', hleft', hnet'⟩ := t'.exists_remainder
  have hone : left' = left := by
    have hrest : t'.payslip.remainder st'.contributions
        = t.payslip.remainder st.contributions := by
      rw [hsame.rest, Stages.contributions, hstages.contributions]
      rfl
    exact Except.ok.inj (hleft'.symm.trans (hrest.trans hleft))
  rw [hone] at hnet'
  refine ⟨hsame, st.exactContributions, left, st.contributions_ok, hleft,
    hnet, hnet', fun hexact hexact' => ?_⟩
  have hvalue := toRat_sub hnet
  have hvalue' := toRat_sub hnet'
  rw [hexact.nearest_eq] at hvalue
  rw [hexact'.nearest_eq] at hvalue'
  rw [hvalue, hvalue', sub_add_cancel, sub_add_cancel]

/-- The manager without the loan, on time and never absent. -/
def Senegal.punctual : Request :=
  { manager with deductions := .empty, attendance := {} }

/-- Both are paid the same earnings, and by as much as less is taken off
more is paid out. -/
theorem calculateWith_sameEarnings_punctual :
    ∃ p p', calculateWith Senegal.manager Senegal.snapshot { places := 0 }
        { year := 2024, month := 6, day := 3 } = .ok p
      ∧ calculateWith Senegal.punctual Senegal.snapshot { places := 0 }
        { year := 2024, month := 6, day := 3 } = .ok p'
      ∧ p.SameEarnings p'
      ∧ p'.totalDeductions.toRat < p.totalDeductions.toRat
      ∧ p.netSalary.toRat + p.totalDeductions.toRat
        = p'.netSalary.toRat + p'.totalDeductions.toRat := by
  have hpaid : (calculateWith Senegal.manager Senegal.snapshot
      { places := 0 } { year := 2024, month := 6, day := 3 }
      ).toOption.any (fun p => (calculateWith Senegal.punctual
        Senegal.snapshot { places := 0 }
        { year := 2024, month := 6, day := 3 }).toOption.any fun p' =>
          (Contributions.compute p.grossSalary
            Senegal.snapshot.contributions).toOption.any fun exact =>
            (p.remainder (exact.rounded { places := 0 })).toOption.any
              fun left => decide (
                p'.totalDeductions.toRat < p.totalDeductions.toRat
                ∧ Small left.toRat [-p.totalDeductions.toRat]
                ∧ Small left.toRat [-p'.totalDeductions.toRat])) = true := by
    decide +kernel
  obtain ⟨p, hp, hpaid⟩ := exists_ok_of_any hpaid
  obtain ⟨p', hp', hpaid⟩ := exists_ok_of_any hpaid
  obtain ⟨exact, hexact, hpaid⟩ := exists_ok_of_any hpaid
  obtain ⟨left, hleft, hpaid⟩ := exists_ok_of_any hpaid
  obtain ⟨hlt, hsmall, hsmall'⟩ := of_decide_eq_true hpaid
  obtain ⟨hsame, _, _, hexact', hleft', -, -, htotal⟩ :=
    calculateWith_sameEarnings rfl hp hp'
  cases hexact.symm.trans hexact'
  cases hleft.symm.trans hleft'
  refine ⟨p, p', hp, hp', hsame, hlt, htotal ?_ ?_⟩
  · rw [sub_eq_add_neg]
    exact hsmall.addsExactly.1
  · rw [sub_eq_add_neg]
    exact hsmall'.addsExactly.1

end Payroll
