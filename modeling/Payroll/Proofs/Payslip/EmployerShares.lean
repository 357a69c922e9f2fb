/-
Employer shares never reach the employee. Both shares of a scheme travel
in one line and are rounded together, but each is computed from the
base and from its own rate. So schemes that differ in the employer's
rate have lines that differ in the employer's rate and share
(`line_same`), and what the employee's side is made of is one list in
both runs. The rest is the argument of `Twins`: such snapshots are
validated, taxed and paid out alike.

What is left of the change are the two inputs of a contribution's
detail that show it, and the employer's shares by scheme.

The products for the employer could fail where those for the employee
do not. They cannot under rates between 0 and 1, which is where the
check of a snapshot is needed.
-/
import Payroll.Proofs.Payslip.Trace
import Payroll.Proofs.Payslip.Twins

namespace Payroll

open Decimal

-- ============================================================== the lines

/-- Schemes that differ in the employer's rate at most. -/
def ContributionRate.SameForEmployee (c c' : ContributionRate) : Prop :=
  c' = { c with employerRate := c'.employerRate }

/-- Lines that differ in the employer's rate and share at most. -/
def ContributionLine.SameForEmployee (l l' : ContributionLine) : Prop :=
  l' = { l with
    employerRate := l'.employerRate, employerAmount := l'.employerAmount }

theorem ContributionRate.line_same {c c' : ContributionRate}
    {gross : Decimal} {l l' : ContributionLine} (h : c.SameForEmployee c')
    (hl : c.line gross = .ok l) (hl' : c'.line gross = .ok l') :
    l.SameForEmployee l' := by
  rw [h] at hl'
  obtain ⟨employee, hemployee, hl⟩ := bind_eq_ok.1 hl
  obtain ⟨employer, -, hl⟩ := bind_eq_ok.1 hl
  obtain ⟨employee', hemployee', hl'⟩ := bind_eq_ok.1 hl'
  obtain ⟨employer', -, hl'⟩ := bind_eq_ok.1 hl'
  cases hemployee.symm.trans hemployee'
  cases hl
  cases hl'
  rfl

namespace Contributions

/-- Contributions whose lines differ in the employer's rates and shares
at most. -/
def SameForEmployee (c c' : Contributions) : Prop :=
  List.Forall₂ ContributionLine.SameForEmployee c.lines c'.lines

variable {c c' : Contributions}

theorem compute_same {rates rates' : List ContributionRate}
    {gross : Decimal}
    (h : List.Forall₂ ContributionRate.SameForEmployee rates rates')
    (hc : compute gross rates = .ok c)
    (hc' : compute gross rates' = .ok c') : c.SameForEmployee c' := by
  obtain ⟨-, hlines⟩ := compute_eq_ok.1 hc
  obtain ⟨-, hlines'⟩ := compute_eq_ok.1 hc'
  unfold SameForEmployee
  clear hc hc'
  generalize c.lines = lines at hlines ⊢
  generalize c'.lines = lines' at hlines' ⊢
  induction h generalizing lines lines' with
  | nil =>
      cases hlines
      cases hlines'
      exact .nil
  | cons hscheme _ ih =>
      cases hlines with
      | cons hline hlines =>
          cases hlines' with
          | cons hline' hlines' =>
              exact .cons (ContributionRate.line_same hscheme hline hline')
                (ih _ hlines _ hlines')

/-- What is made of the employee's shares is one list. -/
theorem SameForEmployee.map_eq {β : Type} (h : c.SameForEmployee c')
    {f : ContributionLine → β}
    (hf : ∀ l l', ContributionLine.SameForEmployee l l' → f l = f l') :
    c.lines.map f = c'.lines.map f := by
  have hmapped : List.Forall₂ (· = ·) (c.lines.map f) (c'.lines.map f) := by
    rw [List.forall₂_map_left_iff, List.forall₂_map_right_iff]
    exact h.imp hf
  rwa [List.forall₂_eq_eq_eq] at hmapped

theorem SameForEmployee.rounded (h : c.SameForEmployee c')
    (rounding : Rounding) :
    (c.rounded rounding).SameForEmployee (c'.rounded rounding) := by
  unfold SameForEmployee Contributions.rounded
  rw [List.forall₂_map_left_iff, List.forall₂_map_right_iff]
  refine h.imp fun l l' hl => ?_
  rw [hl]
  rfl

end Contributions

/-- Snapshots that differ in the employer's rates are twins. -/
theorem twins_of_employerRates {s s' : Snapshot} (hs : s.Proper)
    (hs' : s'.Proper)
    (hrest : s' = { s with contributions := s'.contributions })
    (hrates : List.Forall₂ ContributionRate.SameForEmployee
      s.contributions s'.contributions) :
    Twins Contributions.SameForEmployee s s' where
  rest := by
    have hovertime : s'.overtime = s.overtime := by
      rw [hrest]
    rw [hovertime]
    exact hrest
  overtime := by
    rw [hrest]
    exact fun c => rfl
  contributions gross :=
    Contributions.compute_alike hs.contributions hs'.contributions
      fun c c' => Contributions.compute_same hrates
  floors c c' h := by
    rw [h.map_eq fun l l' hl => by rw [hl]]
  ceilings c c' h := by
    rw [h.map_eq fun l l' hl => by rw [hl]]

-- ============================================================ the details

/-- Inputs that differ in the employer's rate and share at most. -/
def SameInputs (d d' : Document) : Prop :=
  ∃ l l', d = .table l ∧ d' = .table l'
    ∧ List.Forall₂ (fun e e' => e'.1 = e.1
      ∧ (e.1 ∈ ["employer_rate", "employer_amount"] ∨ e'.2 = e.2)) l l'

/-- Details that are the same, or of one contribution and different in
the employer's inputs only. -/
def Detail.SameForEmployee (d d' : Detail) : Prop :=
  d' = d ∨ Family.contribution.holds d.ruleId = true
    ∧ d' = { d with inputs := d'.inputs } ∧ SameInputs d.inputs d'.inputs

theorem ContributionLine.SameForEmployee.numbered {l l' : ContributionLine}
    (h : l.SameForEmployee l') (gross : Decimal) (step : UInt32) :
    ((Figures.contributionTerm gross l).numbered step).SameForEmployee
      ((Figures.contributionTerm gross l').numbered step) := by
  have hid : (Figures.contributionTerm gross l).ruleId
      = Family.contribution.ruleId l.scheme := rfl
  refine .inr ⟨?_, ?_, _, _, rfl, rfl, ?_⟩
  · show Family.contribution.holds (Figures.contributionTerm gross l).ruleId
      = true
    rw [hid, Family.holds_ruleId]
    rfl
  · rw [h]
    rfl
  · rw [h]
    simp

/-- Details of contributions are compared place by place. -/
theorem Contributions.SameForEmployee.details {c c' : Contributions}
    (h : c.SameForEmployee c') (gross : Decimal) (start : Nat) :
    List.Forall₂ Detail.SameForEmployee
      (Term.numberFrom start
        (c.lines.map (Figures.contributionTerm gross)))
      (Term.numberFrom start
        (c'.lines.map (Figures.contributionTerm gross))) := by
  refine Term.forall₂_numberFrom ?_ start
  rw [List.forall₂_map_left_iff, List.forall₂_map_right_iff]
  exact h.imp fun l l' hl step => hl.numbered gross step

-- =========================================================== the payslips

/-- Payslips that differ in what they say of the employer's shares at
most. -/
structure Payslip.SameForEmployee (p p' : Payslip) : Prop where
  rest : p' = { p with
    employerContributions := p'.employerContributions
    details := p'.details }
  details : List.Forall₂ Detail.SameForEmployee p.details p'.details

theorem SameButContributions.sameForEmployee {p p' : Payslip}
    {c c' : Contributions} (h : SameButContributions p p' c c')
    (hc : c.SameForEmployee c') : p.SameForEmployee p' where
  rest := by
    have hshares : p'.contributions = p.contributions := by
      rw [h.employee, h.employee', Contributions.employeeByScheme,
        Contributions.employeeByScheme, hc.map_eq fun l l' hl => by rw [hl]]
    rw [← hshares]
    exact h.rest
  details := by
    obtain ⟨before, after, hdetails, hdetails'⟩ := h.details
    have hlength : (c.lines.map (Figures.contributionTerm p.grossSalary)).length
        = (c'.lines.map (Figures.contributionTerm p.grossSalary)).length := by
      rw [List.length_map, List.length_map]
      exact hc.length_eq
    have hsame : ∀ details : List Detail,
        List.Forall₂ Detail.SameForEmployee details details :=
      fun details => List.forall₂_same.2 fun d _ => .inl rfl
    rw [hdetails, hdetails', Term.number_eq, Term.number_eq]
    simp only [Term.numberFrom_append, hlength]
    exact List.rel_append (hsame _)
      (List.rel_append (hc.details _ _) (hsame _))

/-- Under two checked snapshots that differ in the employer's rates a
request has the same error, or payslips that differ in nothing but the
employer's shares. -/
theorem calculateWith_sameForEmployee (s s' : Snapshot)
    (hs : s.check = .ok ()) (hs' : s'.check = .ok ())
    (hrest : s' = { s with contributions := s'.contributions })
    (hrates : List.Forall₂ ContributionRate.SameForEmployee
      s.contributions s'.contributions)
    (r : Request) (rounding : Rounding) (asOf : Date) :
    Alike Payslip.SameForEmployee (calculateWith r s rounding asOf)
      (calculateWith r s' rounding asOf) := by
  have hproper := Snapshot.proper_of_check hs
  have htwins := twins_of_employerRates hproper
    (Snapshot.proper_of_check hs') hrest hrates
  refine (htwins.calculateWith hproper ?_).imp ?_
  · intro gross c c' _ _ hc
    have htotal : (c.rounded rounding).employeeTotal
        = (c'.rounded rounding).employeeTotal := by
      rw [Contributions.employeeTotal, Contributions.employeeTotal,
        (hc.rounded rounding).map_eq fun l l' hl => by rw [hl]]
    rw [htotal]
    exact .refl fun w _ => .inl rfl
  · rintro p p' - - ⟨c, c', hc, h⟩
    exact h.sameForEmployee (hc.rounded rounding)

/-- The rules with other shares for the employer. -/
def Senegal.reformed : Snapshot :=
  { snapshot with
    contributions :=
      contributions.map fun c => { c with employerRate := 0.095 } }

/-- A reform of the employer's rates leaves the manager's payslip as it
was but for the shares of the employer. -/
theorem calculateWith_sameForEmployee_manager :
    Senegal.snapshot.check = .ok () ∧ Senegal.reformed.check = .ok ()
      ∧ Senegal.reformed = { Senegal.snapshot with
        contributions := Senegal.reformed.contributions }
      ∧ List.Forall₂ ContributionRate.SameForEmployee
        Senegal.snapshot.contributions Senegal.reformed.contributions
      ∧ ∃ p p', calculateWith Senegal.manager Senegal.snapshot
          { places := 0 } { year := 2024, month := 6, day := 3 } = .ok p
        ∧ calculateWith Senegal.manager Senegal.reformed
          { places := 0 } { year := 2024, month := 6, day := 3 } = .ok p'
        ∧ p.employerContributions ≠ p'.employerContributions
        ∧ p.SameForEmployee p' := by
  have hcheck : Senegal.reformed.check = .ok () := by decide +kernel
  have hrates : List.Forall₂ ContributionRate.SameForEmployee
      Senegal.snapshot.contributions Senegal.reformed.contributions :=
    List.forall₂_map_right_iff.2 (List.forall₂_same.2 fun c _ => rfl)
  have hrun := calculateWith_sameForEmployee Senegal.snapshot
    Senegal.reformed Senegal.check_snapshot hcheck rfl hrates
    Senegal.manager { places := 0 } { year := 2024, month := 6, day := 3 }
  have hpaid : (calculateWith Senegal.manager Senegal.snapshot
      { places := 0 } { year := 2024, month := 6, day := 3 }).toOption.any
        (fun _ => true) = true := by
    decide +kernel
  obtain ⟨p, hp, -⟩ := exists_ok_of_any hpaid
  obtain ⟨p', hp', hsame⟩ := hrun.exists_ok hp
  have hchanged : (calculateWith Senegal.manager Senegal.snapshot
      { places := 0 } { year := 2024, month := 6, day := 3 }).toOption.map
        (·.employerContributions)
      ≠ (calculateWith Senegal.manager Senegal.reformed
        { places := 0 } { year := 2024, month := 6, day := 3 }).toOption.map
        (·.employerContributions) := by
    decide +kernel
  rw [hp, hp'] at hchanged
  exact ⟨Senegal.check_snapshot, hcheck, rfl, hrates, p, p', hp, hp',
    fun h => hchanged (congrArg some h), hsame⟩

end Payroll
