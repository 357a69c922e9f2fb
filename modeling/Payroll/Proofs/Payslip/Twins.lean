/-
Two snapshots that agree on everything but their contribution schemes,
and on their overtime rules as far as a look-up can tell. Calculations
under them part where contributions are computed, and nowhere before.
`Twins R` says that the contributions of one gross are related by `R`
there; what follows from it does not depend on what `R` is.

# Validation

The bounds are all of a validation that sees contributions, and they see
sums of floors and of ceilings. Where `R` keeps these, the reports are
the same (`Twins.validate`).

# The payslip

From the contributions on only their total is read: by the tax base, by
the net, and in the formula of the net. Totals that differ at most in
how a zero is spelled come to one taxable income and one net, so the
payslips differ in the contributions alone (`Twins.calculateWith`):
in the two maps of them, and in the stretch of the trace that is made
of their lines.
-/
import Payroll.Proofs.Decimal.Permuted
import Payroll.Proofs.Payslip.Stages
import Payroll.Proofs.Validation.Estimate

namespace Payroll

open Decimal

/-- Proper schemes come to contributions of every gross that is not
negative, so only these have to be related. -/
theorem Contributions.compute_alike
    {R : Contributions → Contributions → Prop} {gross : Decimal}
    {rates rates' : List ContributionRate} (hrates : ∀ r ∈ rates, r.Proper)
    (hrates' : ∀ r ∈ rates', r.Proper)
    (h : ∀ c c', compute gross rates = .ok c →
      compute gross rates' = .ok c' → R c c') :
    Alike R (compute gross rates) (compute gross rates') := by
  by_cases hgross : gross < .zero
  · rw [compute, if_pos hgross, compute, if_pos hgross]
    exact .error _
  · rw [lt_iff_toRat, toRat_zero, not_lt] at hgross
    obtain ⟨c, hc⟩ := exists_compute hrates hgross
    obtain ⟨c', hc'⟩ := exists_compute hrates' hgross
    rw [hc, hc']
    exact .ok (h c c' hc hc')

/-- Snapshots whose overtime rules are found alike and whose schemes
come to contributions related by `R`; everything else is the same in
both. What `R` relates has the same bounds. -/
structure Twins (R : Contributions → Contributions → Prop)
    (s s' : Snapshot) : Prop where
  rest : s' = { s with
    contributions := s'.contributions, overtime := s'.overtime }
  overtime : ∀ c, OvertimeRule.find? s'.overtime c
    = OvertimeRule.find? s.overtime c
  contributions : ∀ gross, Alike R
    (Contributions.compute gross s.contributions)
    (Contributions.compute gross s'.contributions)
  floors : ∀ c c', R c c' →
    Decimal.sum (c.lines.map (·.employeeAmount.floor))
      = Decimal.sum (c'.lines.map (·.employeeAmount.floor))
  ceilings : ∀ c c', R c c' →
    Decimal.sum (c.lines.map (·.employeeAmount.ceil))
      = Decimal.sum (c'.lines.map (·.employeeAmount.ceil))

namespace Twins

variable {R : Contributions → Contributions → Prop} {s s' : Snapshot}
  {r : Request} {rounding : Rounding} {asOf : Date}

/-- Overtime is paid by the rule that is found. -/
theorem compute_overtime (h : Twins R s s') (hours : ByCategory Decimal)
    (rate : Decimal) :
    Overtime.compute hours rate s'.overtime
      = Overtime.compute hours rate s.overtime := by
  simp only [Overtime.compute, Overtime.line, h.overtime]

theorem hourlyRate (h : Twins R s s') : s'.hourlyRate = s.hourlyRate := by
  rw [h.rest]
  rfl

theorem dailyRate (h : Twins R s s') : s'.dailyRate = s.dailyRate := by
  rw [h.rest]
  rfl

theorem incomeTax (h : Twins R s s') : s'.incomeTax = s.incomeTax := by
  rw [h.rest]

theorem attendance (h : Twins R s s') : s'.attendance = s.attendance := by
  rw [h.rest]

theorem dailyHours (h : Twins R s s') : s'.dailyHours = s.dailyHours := by
  rw [h.rest]

theorem effectiveDate (h : Twins R s s') :
    s'.effectiveDate = s.effectiveDate := by
  rw [h.rest]

-- ============================================================= validation

theorem checkOvertime (h : Twins R s s') :
    Validation.checkOvertime r s' = Validation.checkOvertime r s := by
  have hcheck : Validation.checkCategory s' = Validation.checkCategory s := by
    funext e
    simp only [Validation.checkCategory, Snapshot.overtimeRule?, h.overtime]
  simp only [Validation.checkOvertime, hcheck]

theorem examine (h : Twins R s s') :
    Validation.examine r s' asOf = Validation.examine r s asOf := by
  have hsalary : Validation.checkSalary r s' = Validation.checkSalary r s := by
    rw [h.rest]
    rfl
  simp only [Validation.examine, h.checkOvertime, hsalary]

/-- The bounds see contributions only as sums of floors and of
ceilings. -/
theorem bounds (h : Twins R s s') :
    NetBounds.compute r s = NetBounds.compute r s' := by
  unfold NetBounds.compute
  simp only [h.hourlyRate, h.dailyRate, h.incomeTax, h.attendance,
    h.dailyHours, h.compute_overtime]
  refine bind_congr fun allowances => ?_
  refine bind_congr fun fixedPay => ?_
  refine bind_congr fun hourlyRate => ?_
  refine bind_congr fun overtime => ?_
  refine bind_congr fun overtimeFloor => ?_
  refine bind_congr fun overtimeCeiling => ?_
  refine bind_congr fun grossFloor => ?_
  refine bind_congr fun grossCeiling => ?_
  refine (h.contributions grossFloor).attempt_bind
    fun least least' _ _ hleast => ?_
  refine (h.contributions grossCeiling).attempt_bind
    fun most most' _ _ hmost => ?_
  rw [h.floors _ _ hleast, h.ceilings _ _ hmost]

theorem validate (h : Twins R s s') :
    Payroll.validate r s asOf = Payroll.validate r s' asOf := by
  have hestimate : NetBounds.estimate r s' = NetBounds.estimate r s := by
    rw [NetBounds.estimate, NetBounds.estimate, h.bounds]
  simp only [Payroll.validate, h.examine, hestimate]

end Twins

-- ============================================================== the trace

namespace Term

/-- The detail of a term at a step. -/
def numbered (t : Term) (step : UInt32) : Detail :=
  { stepNumber := step, ruleId := t.ruleId, label := t.label
    formula := t.formula, amount := t.amount, inputs := t.inputs }

/-- The details of terms that follow on `start` others. -/
def numberFrom (start : Nat) (terms : List Term) : List Detail :=
  (terms.zipIdx start).map fun e => e.1.numbered (.ofNat e.2 + 1)

theorem number_eq (terms : List Term) : number terms = numberFrom 0 terms :=
  rfl

theorem numberFrom_append (start : Nat) (terms more : List Term) :
    numberFrom start (terms ++ more)
      = numberFrom start terms ++ numberFrom (start + terms.length) more := by
  rw [numberFrom, List.zipIdx_append, List.map_append]
  rfl

theorem numberFrom_cons (start : Nat) (t : Term) (terms : List Term) :
    numberFrom start (t :: terms)
      = t.numbered (.ofNat start + 1) :: numberFrom (start + 1) terms :=
  rfl

/-- Numbering keeps the ids. -/
theorem forall_mem_numberFrom (q : String → Prop) {start : Nat}
    {terms : List Term} (h : ∀ t ∈ terms, q t.ruleId) :
    ∀ d ∈ numberFrom start terms, q d.ruleId := by
  intro d hd
  obtain ⟨e, he, rfl⟩ := List.mem_map.1 hd
  exact h e.1 (List.fst_mem_of_mem_zipIdx he)

/-- Terms that are compared place by place keep their places. -/
theorem forall₂_numberFrom {R : Detail → Detail → Prop}
    {terms terms' : List Term}
    (h : List.Forall₂
      (fun t t' => ∀ step, R (t.numbered step) (t'.numbered step))
      terms terms') (start : Nat) :
    List.Forall₂ R (numberFrom start terms) (numberFrom start terms') := by
  induction h generalizing start with
  | nil => exact .nil
  | cons hterm _ ih => exact .cons (hterm _) (ih _)

end Term

namespace Figures

/-- The trace up to the gross. -/
def earningTerms (f : Figures) : List Term :=
  [f.baseTerm] ++ f.request.allowances.entries.map allowanceTerm
    ++ f.overtime.lines.map overtimeTerm ++ [f.grossTerm]

/-- The trace from the taxable income on. -/
def settlingTerms (f : Figures) : List Term :=
  [f.taxableTerm, taxTerm f.tax]
    ++ f.request.deductions.entries.map deductionTerm
    ++ delayTerms f.adjustment ++ absenceTerms f.adjustment
    ++ [f.deductionsTerm, f.netTerm]

/-- The contributions stand in one place of the trace. -/
theorem terms_eq (f : Figures) : f.terms = f.earningTerms
    ++ (f.contributions.lines.map (contributionTerm f.gross)
      ++ f.settlingTerms) := by
  simp only [terms, earningTerms, settlingTerms, List.append_assoc]

end Figures

/-- Payslips that differ only in their contributions, which are taken
from the same gross and stand in the same place. -/
structure SameButContributions (p p' : Payslip) (c c' : Contributions) :
    Prop where
  rest : p' = { p with
    contributions := p'.contributions
    employerContributions := p'.employerContributions
    details := p'.details }
  employee : p.contributions = c.employeeByScheme
  employee' : p'.contributions = c'.employeeByScheme
  employer : p.employerContributions = c.employerByScheme
  employer' : p'.employerContributions = c'.employerByScheme
  details : ∃ before after,
    p.details = Term.number (before
      ++ (c.lines.map (Figures.contributionTerm p.grossSalary) ++ after))
    ∧ p'.details = Term.number (before
      ++ (c'.lines.map (Figures.contributionTerm p.grossSalary) ++ after))

/-- The total of the contributions shows in the net and in the text of a
formula, neither of which sees how a zero is spelled. -/
theorem Figures.sameButContributions (f : Figures) (date : Date)
    (c' : Contributions) {w' : Decimal}
    (hw : EqUpToZero f.totalContributions w') :
    SameButContributions (f.payslip date)
      ({ f with contributions := c', totalContributions := w' }.payslip date)
      f.contributions c' where
  rest := rfl
  employee := rfl
  employee' := rfl
  employer := rfl
  employer' := rfl
  details := by
    have hnet : netTerm { f with
        contributions := c', totalContributions := w' } = f.netTerm := by
      simp only [netTerm, brief, hw.normalize_eq]
    refine ⟨f.earningTerms, f.settlingTerms,
      congrArg Term.number f.terms_eq, ?_⟩
    refine congrArg Term.number ((terms_eq _).trans ?_)
    unfold settlingTerms
    rw [hnet]
    rfl

-- ============================================================ the payslip

/-- The gross salary of a request under given rules. -/
def Request.gross (r : Request) (s : Snapshot) (rounding : Rounding) :
    Except Failure Decimal := do
  let hourlyRate ← s.hourlyRate r.baseSalary
  let exactOvertime ←
    Overtime.compute r.overtimeHours hourlyRate s.overtime
  let overtime ← exactOvertime.rounded rounding
  let allowances ← r.totalAllowances
  let fixedPay ← r.baseSalary.add allowances
  fixedPay.add overtime.total

variable {r : Request} {s s' : Snapshot} {rounding : Rounding} {asOf : Date}
  {R : Contributions → Contributions → Prop}

/-- An accepted request earns something. -/
theorem Accepted.gross_pos (h : Accepted r) (hs : s.Proper)
    {gross : Decimal} (hgross : r.gross s rounding = .ok gross) :
    0 < gross.toRat := by
  obtain ⟨hourlyRate, -, hgross⟩ := bind_eq_ok.1 hgross
  obtain ⟨exactOvertime, hexact, hgross⟩ := bind_eq_ok.1 hgross
  obtain ⟨overtime, hovertime, hgross⟩ := bind_eq_ok.1 hgross
  obtain ⟨allowances, hallowances, hgross⟩ := bind_eq_ok.1 hgross
  obtain ⟨fixedPay, hfixedPay, hgross⟩ := bind_eq_ok.1 hgross
  rw [liftM_fault_eq_ok] at hovertime hallowances hfixedPay hgross
  obtain ⟨-, hamounts, htotal⟩ := Overtime.rounded_eq_ok hovertime
  have hlines : ∀ a ∈ overtime.lines.map (·.amount), 0 ≤ a.toRat := by
    rw [hamounts]
    intro a ha
    obtain ⟨l, hl, rfl⟩ := List.mem_map.1 ha
    rw [Rounding.toRat_round]
    exact rounding.value_nonneg
      (Overtime.amount_nonneg hs.overtime hexact l hl)
  have hextra := toRat_sum_nonneg hlines htotal
  have hallowed := toRat_sum_nonneg h.allowances_nonneg hallowances
  have hfixed := toRat_le_add_left hallowed hfixedPay
  have hall := toRat_le_add_left hextra hgross
  linarith [h.salary_pos]

namespace Twins

/-- Figures that are put together from twin contributions. -/
theorem figures {tax : TaxAssessment} {c c' : Contributions}
    {overtime : Overtime} {adjustment : Adjustment}
    (htotal : Alike EqUpToZero c.employeeTotal c'.employeeTotal) :
    Alike (fun f f' => f.contributions = c
        ∧ ∃ w', EqUpToZero f.totalContributions w'
          ∧ f' = { f with contributions := c', totalContributions := w' })
      (Figures.compute r tax c overtime adjustment)
      (Figures.compute r tax c' overtime adjustment) := by
  unfold Figures.compute
  refine Alike.bind_same fun overtimeSum _ => ?_
  split
  · exact .error _
  · refine Alike.bind_same fun allowances _ => ?_
    refine Alike.bind_same fun fixedPay _ => ?_
    refine Alike.bind_same fun gross _ => ?_
    refine htotal.toFailure.bind fun w w' _ _ hw => ?_
    refine Alike.bind_same fun explicit _ => ?_
    refine Alike.bind_same fun adjusted _ => ?_
    refine Alike.bind_same fun deductions _ => ?_
    split
    · exact .error _
    · refine Alike.bind_same fun afterTax _ => ?_
      refine hw.sub_sub afterTax deductions fun net => ?_
      split
      · exact .error _
      · exact .ok ⟨rfl, w', hw, rfl⟩

/-- The tax base does not see how a zero is spelled. -/
theorem taxableIncome_eq (base : TaxBase) {gross w w' : Decimal}
    (hpos : 0 < gross.toRat) (hw : EqUpToZero w w') :
    base.taxableIncome gross w = base.taxableIncome gross w' := by
  have hzero : gross.isZero = false := by
    rw [Bool.eq_false_iff, ne_eq, isZero_iff]
    exact hpos.ne'
  cases base with
  | gross => rfl
  | grossLessEmployeeContributions => exact hw.sub_eq hzero

/-- Twins calculate alike, if their contributions sum up alike. -/
theorem calculateWith (h : Twins R s s') (hs : s.Proper)
    (htotal : ∀ gross c c', r.gross s rounding = .ok gross →
      Contributions.compute gross s.contributions = .ok c → R c c' →
      Alike EqUpToZero (c.rounded rounding).employeeTotal
        (c'.rounded rounding).employeeTotal) :
    Alike (fun p p' => ∃ c c', R c c' ∧ SameButContributions p p'
        (c.rounded rounding) (c'.rounded rounding))
      (calculateWith r s rounding asOf)
      (calculateWith r s' rounding asOf) := by
  unfold Payroll.calculateWith
  rw [← h.validate]
  refine Alike.bind_same fun report hreport => ?_
  rw [liftM_crash_eq_ok] at hreport
  split
  · exact .error _
  · rename_i hvalid
    rw [not_not] at hvalid
    have haccepted := accepted_of_valid hreport hvalid
    simp only [h.hourlyRate, h.dailyRate, h.incomeTax, h.attendance,
      h.dailyHours, h.effectiveDate, h.compute_overtime]
    refine Alike.bind_same fun hourlyRate hhourly => ?_
    refine Alike.bind_same fun exactOvertime hexact => ?_
    refine Alike.bind_same fun overtime hovertime => ?_
    refine Alike.bind_same fun allowances hallowances => ?_
    refine Alike.bind_same fun fixedPay hfixedPay => ?_
    refine Alike.bind_same fun gross hgross => ?_
    have hearned : r.gross s rounding = .ok gross := by
      simp only [Request.gross, hhourly, hexact, hovertime, hallowances,
        hfixedPay, hgross, ok_bind]
    have hpos := haccepted.gross_pos hs hearned
    refine (h.contributions gross).bind fun c c' hc hc' hR => ?_
    have hsum := htotal gross c c' hearned hc hR
    refine hsum.toFailure.bind fun w w' _ _ hw => ?_
    rw [taxableIncome_eq s.incomeTax.base hpos hw]
    refine Alike.bind_same fun taxable _ => ?_
    refine Alike.bind_same fun exactTax _ => ?_
    refine Alike.bind_same fun dailyRate _ => ?_
    refine Alike.bind_same fun exactAdjustment _ => ?_
    refine (figures hsum).bind fun f f' _ _ hf => ?_
    obtain ⟨hcontributions, w', hw', rfl⟩ := hf
    refine .ok ⟨c, c', hR, ?_⟩
    rw [← hcontributions]
    exact f.sameButContributions s.effectiveDate _ hw'

end Twins

end Payroll
