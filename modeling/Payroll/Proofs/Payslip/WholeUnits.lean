/-
Whole units of the ledger currency. What a calculator answers with is
rounded before the next stage uses it, so the tax, every contribution,
every overtime amount and both amounts of attendance are whole units on
every payslip. Sums and differences add no fraction to what they are
made of, however large they are.

Salary, allowances and deductions are not answers of a calculator, and
no stage rounds them. They enter the sums as they were given. So the
published totals are whole units where the request's own amounts are
(`calculate_whole`), and a request with half a unit in a deduction has
a payslip with half a unit in its net
(`calculate_fraction_of_deduction`).
-/
import Payroll.Proofs.Payslip.Statutory

namespace Payroll

open Decimal

/-- The amounts of a payslip that stem from a calculator are whole
units. -/
structure Payslip.Rounded (p : Payslip) (places : ℕ) : Prop where
  incomeTax : Whole places p.incomeTax.toRat
  contributions : ∀ a ∈ p.contributions.values, Whole places a.toRat
  employerContributions :
    ∀ a ∈ p.employerContributions.values, Whole places a.toRat
  overtimeAmounts : ∀ a ∈ p.overtimeAmounts.values, Whole places a.toRat
  totalOvertime : Whole places p.totalOvertime.toRat
  delayPenalty : Whole places p.attendance.delayPenalty.toRat
  absenceDeduction : Whole places p.attendance.absenceDeduction.toRat

/-- Every amount of a payslip is whole units. -/
structure Payslip.WholeUnits (p : Payslip) (places : ℕ) : Prop extends
    p.Rounded places where
  totalAllowances : Whole places p.totalAllowances.toRat
  grossSalary : Whole places p.grossSalary.toRat
  totalDeductions : Whole places p.totalDeductions.toRat
  netSalary : Whole places p.netSalary.toRat

/-- Salary and allowances are whole units. -/
structure Request.PaysWhole (r : Request) (places : ℕ) : Prop where
  baseSalary : Whole places r.baseSalary.toRat
  allowances : ∀ a ∈ r.allowances.values, Whole places a.toRat

/-- The deductions asked for are whole units. -/
def Request.DeductsWhole (r : Request) (places : ℕ) : Prop :=
  ∀ a ∈ r.deductions.values, Whole places a.toRat

variable {r : Request} {s : Snapshot} {rounding : Rounding}

namespace Stages

variable (st : Stages r s rounding)

/-- Every amount of a rounded line is whole units. -/
theorem whole_contribution {f : ContributionLine → Decimal}
    (hf : ∀ l ∈ st.contributions.lines, ∃ a, f l = rounding.round a)
    (hs : s.Proper) :
    ∀ a ∈ (st.contributions.byScheme f).values,
      Whole rounding.places a.toRat := by
  have hnodup : ((st.contributions.lines.map fun l => (l.scheme, f l)).map
      (·.1)).Nodup := by
    rw [Contributions.map_fst_byScheme, st.schemes_eq]
    exact hs.schemes
  intro a ha
  have hmem := (Named.values_ofList_perm hnodup).mem_iff.1 ha
  rw [List.map_map] at hmem
  obtain ⟨l, hl, rfl⟩ := List.mem_map.1 hmem
  obtain ⟨exact, hexact⟩ := hf l hl
  show Whole _ (f l).toRat
  rw [hexact]
  exact rounding.whole_round exact

theorem whole_employee (hs : s.Proper) :
    ∀ a ∈ st.contributions.employeeByScheme.values,
      Whole rounding.places a.toRat := by
  refine st.whole_contribution (fun l hl => ?_) hs
  obtain ⟨l', -, rfl⟩ := List.mem_map.1 hl
  exact ⟨l'.employeeAmount, rfl⟩

theorem whole_employer (hs : s.Proper) :
    ∀ a ∈ st.contributions.employerByScheme.values,
      Whole rounding.places a.toRat := by
  refine st.whole_contribution (fun l hl => ?_) hs
  obtain ⟨l', -, rfl⟩ := List.mem_map.1 hl
  exact ⟨l'.employerAmount, rfl⟩

theorem whole_withheld : Whole rounding.places st.withheld.toRat := by
  refine whole_sum (fun a ha => ?_) st.withheld_ok
  obtain ⟨l, hl, rfl⟩ := List.mem_map.1 ha
  obtain ⟨l', -, rfl⟩ := List.mem_map.1 hl
  exact rounding.whole_round l'.employeeAmount

theorem whole_overtime :
    ∀ a ∈ st.overtime.lines.map (·.amount),
      Whole rounding.places a.toRat := by
  rw [(Overtime.rounded_eq_ok st.overtime_ok).2.1]
  intro a ha
  obtain ⟨l, -, rfl⟩ := List.mem_map.1 ha
  exact rounding.whole_round l.amount

theorem whole_totalOvertime :
    Whole rounding.places st.overtime.total.toRat :=
  whole_sum st.whole_overtime (Overtime.rounded_eq_ok st.overtime_ok).2.2

/-- The gross is whole units if salary and allowances are. -/
theorem whole_gross (h : r.PaysWhole rounding.places) :
    Whole rounding.places st.allowances.toRat
      ∧ Whole rounding.places st.gross.toRat := by
  have htotal := whole_sum h.allowances st.allowances_ok
  exact ⟨htotal, whole_add st.gross_ok
    (whole_add st.fixedPay_ok h.baseSalary htotal) st.whole_totalOvertime⟩

end Stages

namespace Settlement

variable {st : Stages r s rounding} (t : Settlement st)

theorem rounded (hs : s.Proper) : t.payslip.Rounded rounding.places where
  incomeTax := rounding.whole_round st.exactTax.tax
  contributions := st.whole_employee hs
  employerContributions := st.whole_employer hs
  overtimeAmounts := by
    show ∀ a ∈ st.overtime.amountByCategory.values, _
    rw [Overtime.values_amountByCategory (st.categories_sublist hs)]
    exact st.whole_overtime
  totalOvertime := st.whole_totalOvertime
  delayPenalty := rounding.whole_round st.exactAdjustment.delayPenalty
  absenceDeduction :=
    rounding.whole_round st.exactAdjustment.absenceDeduction

theorem whole_deductions (h : r.DeductsWhole rounding.places) :
    Whole rounding.places t.deductions.toRat :=
  whole_add t.deductions_ok (whole_sum h t.explicit_ok)
    (whole_add t.adjusted_ok
      (rounding.whole_round st.exactAdjustment.delayPenalty)
      (rounding.whole_round st.exactAdjustment.absenceDeduction))

theorem whole_net (hgross : Whole rounding.places st.gross.toRat)
    (hdeductions : Whole rounding.places t.deductions.toRat) :
    Whole rounding.places t.net.toRat :=
  whole_sub t.net_ok
    (whole_sub t.afterContributions_ok
      (whole_sub t.afterTax_ok hgross
        (rounding.whole_round st.exactTax.tax)) st.whole_withheld)
    hdeductions

end Settlement

/-- On every payslip what stems from a calculator is whole units of the
currency. A total is, if the amounts of the request that go into it
are. -/
theorem calculate_whole (book : RuleBook) (r : Request) (asOf : Date)
    {p : Payslip} (h : calculate r book asOf = .ok p) :
    p.Rounded book.rounding.places
    ∧ (r.PaysWhole book.rounding.places →
      Whole book.rounding.places p.totalAllowances.toRat
        ∧ Whole book.rounding.places p.grossSalary.toRat)
    ∧ (r.DeductsWhole book.rounding.places →
      Whole book.rounding.places p.totalDeductions.toRat)
    ∧ (r.PaysWhole book.rounding.places →
      r.DeductsWhole book.rounding.places →
      p.WholeUnits book.rounding.places) := by
  obtain ⟨s, hmem, st, t, rfl⟩ := exists_settlement h
  have hrounded :=
    t.rounded (Snapshot.proper_of_check (book.checked s hmem))
  refine ⟨hrounded, st.whole_gross, t.whole_deductions, ?_⟩
  intro hpay hdeductions
  obtain ⟨hallowances, hgross⟩ := st.whole_gross hpay
  have hdeducted := t.whole_deductions hdeductions
  exact {
    toRounded := hrounded
    totalAllowances := hallowances
    grossSalary := hgross
    totalDeductions := hdeducted
    netSalary := t.whole_net hgross hdeducted }

/-- A month with a delay, a day and a half of absence and a loan to pay
back. -/
def Senegal.borrower (loan : Decimal) : Request :=
  { employeeId := "E-1"
    period := .of 2024 3
    baseSalary := 333333
    regularHours := 160
    deductions := .ofList [("loan", loan)]
    attendance := { delayMinutes := 37, absenceDays := 1.5 } }

/-- With a loan in whole francs the payslip is in whole francs. -/
theorem calculate_whole_borrower : ∃ p,
    calculate (Senegal.borrower (.of 1001 0)) Senegal.book
      { year := 2024, month := 3, day := 31 } = .ok p
    ∧ p.netSalary = .of 206446 0 ∧ p.WholeUnits 0 := by
  have hnet : ((calculate (Senegal.borrower (.of 1001 0)) Senegal.book
      { year := 2024, month := 3, day := 31 }).toOption.map (·.netSalary))
        = some (.of 206446 0) := by
    decide +kernel
  cases hp : calculate (Senegal.borrower (.of 1001 0)) Senegal.book
      { year := 2024, month := 3, day := 31 } with
  | error e =>
      rw [hp] at hnet
      cases hnet
  | ok p =>
      rw [hp] at hnet
      obtain ⟨-, -, -, hwhole⟩ := calculate_whole Senegal.book _ _ hp
      exact ⟨p, rfl, Option.some.inj hnet,
        hwhole ⟨by decide +kernel, by decide +kernel⟩
          (by unfold Request.DeductsWhole; decide +kernel)⟩

/-- With half a franc in the loan there is half a franc in the net. -/
theorem calculate_fraction_of_deduction : ∃ p,
    calculate (Senegal.borrower (.of 100050 2)) Senegal.book
      { year := 2024, month := 3, day := 31 } = .ok p
    ∧ p.netSalary = .of 20644650 2 ∧ ¬p.WholeUnits 0 := by
  have hnet : ((calculate (Senegal.borrower (.of 100050 2)) Senegal.book
      { year := 2024, month := 3, day := 31 }).toOption.map (·.netSalary))
        = some (.of 20644650 2) := by
    decide +kernel
  cases hp : calculate (Senegal.borrower (.of 100050 2)) Senegal.book
      { year := 2024, month := 3, day := 31 } with
  | error e =>
      rw [hp] at hnet
      cases hnet
  | ok p =>
      rw [hp] at hnet
      have hvalue : p.netSalary = .of 20644650 2 := Option.some.inj hnet
      have hfraction : ¬Whole 0 (Decimal.of 20644650 2).toRat := by
        decide +kernel
      exact ⟨p, rfl, hvalue, fun h => hfraction (hvalue ▸ h.netSalary)⟩

end Payroll
