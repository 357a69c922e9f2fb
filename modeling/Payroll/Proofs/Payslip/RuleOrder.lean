/-
The order of the rules does not matter. Overtime rules are looked up by
category, and a checked table has one rule for each; schemes are summed
up and reported by name. What the order of the schemes could touch are
their sums, since addition rounds and spells.

# Bounds

The bounds of a validation sum up floors and ceilings. Shares carry no
sign, so these are natural numbers, and their sum does not see the
order, overflow included.

# The total

The payslip sums up rounded shares. Their total is below four times the
gross, because rounding doubles a value at most, it is done twice, and
the rates of a checked table stay below one together
(`total_rounded_le`). Under a gross of less than `10 ^ 20` every sum is
then exact. A total of zero may be spelled in two ways, which nothing on
a payslip shows: the gross is not zero, and what is taken from it is
spelled by what comes after.

What is left of the order are the details of the contributions, which
stand in the order of the rules.
-/
import Payroll.Proofs.Payslip.Trace
import Payroll.Proofs.Payslip.Twins

namespace Payroll

open Decimal

-- ============================================================ contributions

namespace Contributions

variable {rates rates' : List ContributionRate} {gross : Decimal}
  {c c' : Contributions} {rounding : Rounding}

/-- Contributions of the same lines in two orders. -/
structure Reordered (c c' : Contributions) : Prop where
  lines : c.lines.Perm c'.lines
  schemes : (c.lines.map (·.scheme)).Nodup
  unsigned : ∀ l ∈ c.lines, l.employeeAmount.negative = false

/-- The share of a gross that is not negative has no sign. -/
theorem employee_unsigned (hrates : ∀ r ∈ rates, r.Proper)
    (h : compute gross rates = .ok c) :
    ∀ l ∈ c.lines, l.employeeAmount.negative = false := by
  obtain ⟨hgross, hlines⟩ := compute_eq_ok.1 h
  clear h
  generalize c.lines = lines at hlines ⊢
  induction hlines with
  | nil => exact nofun
  | @cons r l rates lines hline _ ih =>
      obtain ⟨hr, hrest⟩ := List.forall_mem_cons.1 hrates
      obtain ⟨-, hemployee, -⟩ := ContributionRate.line_eq_ok hline
      have hbase : 0 ≤ (r.base gross).toRat := by
        rw [ContributionRate.toRat_base]
        exact ContributionRate.capped_nonneg hr hgross
      exact List.forall_mem_cons.2
        ⟨negative_of_mul hbase hr.employee_nonneg hemployee, ih hrest⟩

theorem compute_reordered (hrates : ∀ r ∈ rates, r.Proper)
    (hschemes : (rates.map (·.scheme)).Nodup) (hperm : rates.Perm rates')
    (hc : compute gross rates = .ok c)
    (hc' : compute gross rates' = .ok c') : c.Reordered c' where
  lines := by
    obtain ⟨hgross, hlines⟩ := compute_eq_ok.1 hc
    obtain ⟨lines, hlines', hsame⟩ :=
      List.perm_comp_forall₂ hperm.symm hlines
    have h : compute gross rates' = .ok ⟨lines⟩ :=
      compute_eq_ok.2 ⟨hgross, hlines'⟩
    cases hc'.symm.trans h
    exact hsame.symm
  schemes := by
    rw [map_scheme hc]
    exact hschemes
  unsigned := employee_unsigned hrates hc

theorem Reordered.floors (h : c.Reordered c') :
    Decimal.sum (c.lines.map (·.employeeAmount.floor))
      = Decimal.sum (c'.lines.map (·.employeeAmount.floor)) := by
  refine sum_isNat_perm (fun a ha => ?_) (h.lines.map _)
  obtain ⟨l, hl, rfl⟩ := List.mem_map.1 ha
  exact isNat_floor (h.unsigned l hl)

theorem Reordered.ceilings (h : c.Reordered c') :
    Decimal.sum (c.lines.map (·.employeeAmount.ceil))
      = Decimal.sum (c'.lines.map (·.employeeAmount.ceil)) := by
  refine sum_isNat_perm (fun a ha => ?_) (h.lines.map _)
  obtain ⟨l, hl, rfl⟩ := List.mem_map.1 ha
  exact isNat_ceil (h.unsigned l hl)

-- ================================================================= totals

/-- Rounded once by the product and once to the ledger, a share is no
more than four times what the rate says. -/
theorem value_employeeDue_le {r : ContributionRate} (hr : r.Proper)
    {g : ℚ} (hg : 0 ≤ g) :
    rounding.value (r.employeeDue g) ≤ 4 * g * r.employeeRate.toRat := by
  have hcapped := ContributionRate.capped_nonneg hr hg
  have hshare := mul_nonneg hcapped hr.employee_nonneg
  have hle := mul_le_mul_of_nonneg_right (r.capped_le g) hr.employee_nonneg
  calc rounding.value (r.employeeDue g)
      ≤ 2 * r.employeeDue g :=
        rounding.value_le_two_mul (ContributionRate.employeeDue_nonneg hr hg)
    _ ≤ 2 * (2 * (r.capped g * r.employeeRate.toRat)) := by
        have := nearest_le_two_mul hshare
        unfold ContributionRate.employeeDue
        linarith
    _ ≤ 4 * g * r.employeeRate.toRat := by linarith

theorem total_rounded_le (hrates : ContributionRate.Table rates)
    (h : compute gross rates = .ok c) :
    total ((c.rounded rounding).lines.map (·.employeeAmount))
      ≤ 4 * gross.toRat := by
  have hproper := hrates.proper
  have hgross := (compute_eq_ok.1 h).1
  rw [total_employee_rounded rounding h]
  calc (rates.map fun r =>
        rounding.value (r.employeeDue gross.toRat)).sum
      ≤ (rates.map fun r => 4 * gross.toRat * r.employeeRate.toRat).sum :=
        List.sum_le_sum fun r hr => value_employeeDue_le (hproper r hr) hgross
    _ = 4 * gross.toRat * (rates.map (·.employeeRate.toRat)).sum :=
        List.sum_map_mul_left _ _ _
    _ ≤ 4 * gross.toRat * 1 := by
        have := hrates.sum_lt.le
        gcongr
    _ = 4 * gross.toRat := mul_one _

theorem Reordered.rounded (h : c.Reordered c') (rounding : Rounding) :
    (c.rounded rounding).lines.Perm (c'.rounded rounding).lines :=
  h.lines.map _

/-- Under a gross that is small enough the totals are the same. -/
theorem Reordered.employeeTotal (h : c.Reordered c')
    (hrates : ContributionRate.Table rates)
    (hplaces : rounding.places ≤ 4) (hc : compute gross rates = .ok c)
    (hlt : gross.toRat < 10 ^ 20) :
    Alike EqUpToZero (c.rounded rounding).employeeTotal
      (c'.rounded rounding).employeeTotal := by
  have hproper := hrates.proper
  have htotal : total ((c.rounded rounding).lines.map (·.employeeAmount))
      ≤ 4 * gross.toRat := total_rounded_le hrates hc
  refine sum_eqUpToZero (payable_rounded hplaces hproper hc) ?_
    (by linarith) ((h.rounded rounding).map _)
  intro a ha
  unfold Contributions.rounded at ha
  rw [List.map_map] at ha
  obtain ⟨l, hl, rfl⟩ := List.mem_map.1 ha
  exact (scale_round_le _ _ _).trans hplaces

end Contributions

-- =========================================================== the payslips

/-- Snapshots of the same rules in two orders are twins. -/
theorem twins_of_perm {s : Snapshot} (hs : s.check = .ok ())
    {rates : List ContributionRate} {rules : List OvertimeRule}
    (hrates : s.contributions.Perm rates) (hrules : s.overtime.Perm rules) :
    Twins Contributions.Reordered s
      { s with contributions := rates, overtime := rules } where
  rest := rfl
  -- a rule is found wherever it stands
  overtime := fun c => (find?_key_perm
    (Snapshot.check_eq_ok.1 hs).overtime.distinct hrules c).symm
  contributions gross := by
    have hproper := Snapshot.proper_of_check hs
    exact Contributions.compute_alike hproper.contributions
      (fun r hr => hproper.contributions r (hrates.mem_iff.2 hr))
      fun c c' => Contributions.compute_reordered hproper.contributions
        hproper.schemes hrates
  floors _ _ h := h.floors
  ceilings _ _ h := h.ceilings

/-- A detail whatever its step. -/
def Detail.unnumbered (d : Detail) : Detail := { d with stepNumber := 0 }

/-- Payslips that differ in the order and the numbers of the
contributions in their details at most. -/
structure Payslip.Reordered (p p' : Payslip) : Prop where
  rest : p' = { p with details := p'.details }
  details : ∃ before own own' after,
    p.details = before ++ own ++ after
      ∧ p'.details = before ++ own' ++ after
      ∧ (own.map (·.unnumbered)).Perm (own'.map (·.unnumbered))
      ∧ ∀ d ∈ own, Family.contribution.holds d.ruleId = true

/-- Numbered terms are the terms. -/
theorem Term.map_unnumbered (start : Nat) (terms : List Term) :
    (numberFrom start terms).map (·.unnumbered)
      = terms.map fun t => (t.numbered 0).unnumbered := by
  induction terms generalizing start with
  | nil => rfl
  | cons t terms ih =>
      rw [numberFrom_cons, List.map_cons, ih, List.map_cons]
      rfl

theorem SameButContributions.reordered {p p' : Payslip}
    {c c' : Contributions} (h : SameButContributions p p' c c')
    (hlines : c.lines.Perm c'.lines)
    (hschemes : (c.lines.map (·.scheme)).Nodup) : p.Reordered p' where
  rest := by
    have hnamed : ∀ f : ContributionLine → Decimal,
        c'.byScheme f = c.byScheme f := fun f => by
      rw [← Contributions.map_fst_byScheme (f := f)] at hschemes
      exact (Named.ofList_eq_of_perm hschemes (hlines.map _)).symm
    have hemployee : p'.contributions = p.contributions := by
      rw [h.employee, h.employee']
      exact hnamed (·.employeeAmount)
    have hemployer : p'.employerContributions = p.employerContributions := by
      rw [h.employer, h.employer']
      exact hnamed (·.employerAmount)
    rw [← hemployee, ← hemployer]
    exact h.rest
  details := by
    obtain ⟨before, after, hdetails, hdetails'⟩ := h.details
    have hlength := hlines.length_eq
    rw [Term.number_eq, Term.numberFrom_append, Term.numberFrom_append,
      ← List.append_assoc, List.length_map] at hdetails hdetails'
    rw [← hlength] at hdetails'
    refine ⟨_, _, _, _, hdetails, hdetails', ?_, ?_⟩
    · rw [Term.map_unnumbered, Term.map_unnumbered]
      exact (hlines.map _).map _
    · refine Term.forall_mem_numberFrom
        (Family.contribution.holds · = true) fun t ht => ?_
      obtain ⟨l, -, rfl⟩ := List.mem_map.1 ht
      exact (Family.holds_ruleId .contribution .contribution l.scheme).trans
        rfl

/-- The same rules in another order come to the same error, or to
payslips that differ only in the order in which contributions are
traced. -/
theorem calculateWith_reordered (s : Snapshot) (hs : s.check = .ok ())
    {rates : List ContributionRate} {rules : List OvertimeRule}
    (hrates : s.contributions.Perm rates) (hrules : s.overtime.Perm rules)
    (r : Request) (rounding : Rounding) (hplaces : rounding.places ≤ 4)
    (hgross : ∀ gross, r.gross s rounding = .ok gross →
      gross.toRat < 10 ^ 20)
    (asOf : Date) :
    Alike Payslip.Reordered (calculateWith r s rounding asOf)
      (calculateWith r { s with contributions := rates, overtime := rules }
        rounding asOf) := by
  have htwins := twins_of_perm hs hrates hrules
  refine (htwins.calculateWith (Snapshot.proper_of_check hs) ?_).imp ?_
  · intro gross c c' hearned hc hR
    exact hR.employeeTotal (Snapshot.check_eq_ok.1 hs).contributions hplaces hc
      (hgross gross hearned)
  · rintro p p' - - ⟨c, c', hR, h⟩
    refine h.reordered (hR.rounded rounding) ?_
    rw [Contributions.scheme_rounded]
    exact hR.schemes

/-- The rules written down from the last to the first. -/
def Senegal.reversed : Snapshot :=
  { snapshot with
    contributions := contributions.reverse, overtime := overtime.reverse }

/-- The manager's payslip traces the contributions in the other order,
and that is all. -/
theorem calculateWith_reordered_manager :
    Senegal.snapshot.check = .ok ()
      ∧ Senegal.contributions.Perm Senegal.reversed.contributions
      ∧ Senegal.overtime.Perm Senegal.reversed.overtime
      ∧ (∀ gross, Senegal.manager.gross Senegal.snapshot { places := 0 }
        = .ok gross → gross.toRat < 10 ^ 20)
      ∧ ∃ p p', calculateWith Senegal.manager Senegal.snapshot
          { places := 0 } { year := 2024, month := 6, day := 3 } = .ok p
        ∧ calculateWith Senegal.manager Senegal.reversed
          { places := 0 } { year := 2024, month := 6, day := 3 } = .ok p'
        ∧ p.details.map (·.ruleId) ≠ p'.details.map (·.ruleId)
        ∧ p.Reordered p' := by
  have hrates : Senegal.contributions.Perm Senegal.reversed.contributions :=
    (List.reverse_perm _).symm
  have hrules : Senegal.overtime.Perm Senegal.reversed.overtime :=
    (List.reverse_perm _).symm
  have hgross : ∀ gross, Senegal.manager.gross Senegal.snapshot
      { places := 0 } = .ok gross → gross.toRat < 10 ^ 20 := by
    have h : (Senegal.manager.gross Senegal.snapshot
        { places := 0 }).toOption.all
          (fun gross => decide (gross.toRat < 10 ^ 20)) = true := by
      decide +kernel
    intro gross hearned
    rw [hearned] at h
    simpa [Except.toOption] using h
  have hrun : Alike Payslip.Reordered
      (calculateWith Senegal.manager Senegal.snapshot { places := 0 }
        { year := 2024, month := 6, day := 3 })
      (calculateWith Senegal.manager Senegal.reversed { places := 0 }
        { year := 2024, month := 6, day := 3 }) :=
    calculateWith_reordered Senegal.snapshot Senegal.check_snapshot hrates
      hrules Senegal.manager { places := 0 } (by decide) hgross _
  have hpaid : (calculateWith Senegal.manager Senegal.snapshot
      { places := 0 } { year := 2024, month := 6, day := 3 }).toOption.any
        (fun _ => true) = true := by
    decide +kernel
  obtain ⟨p, hp, -⟩ := exists_ok_of_any hpaid
  obtain ⟨p', hp', hsame⟩ := hrun.exists_ok hp
  have hchanged : (calculateWith Senegal.manager Senegal.snapshot
      { places := 0 } { year := 2024, month := 6, day := 3 }).toOption.map
        (fun p => p.details.map (·.ruleId))
      ≠ (calculateWith Senegal.manager Senegal.reversed
        { places := 0 } { year := 2024, month := 6, day := 3 }).toOption.map
        (fun p => p.details.map (·.ruleId)) := by
    decide +kernel
  rw [hp, hp'] at hchanged
  exact ⟨Senegal.check_snapshot, hrates, hrules, hgross, p, p', hp, hp',
    fun h => hchanged (congrArg some h), hsame⟩

end Payroll
