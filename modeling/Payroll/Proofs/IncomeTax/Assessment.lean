/-
What an assessment reports. Whoever reads the bracket, the income and
the tax of an assessment can work out the tax again: the bracket is the
one that covers the income, and the tax is its fixed amount and its rate
on what the income exceeds its lower bound by (`Explains`).

The bracket is looked up twice, once to form the tax and once to report
it. And at the lower bound of a bracket its fixed amount is taken as it
is, where the rule adds a slice of no width. Neither makes a difference
to what the tax comes to; the slice can only change how it is written.

Two kinds of income are refused, and no others (`Rejects`). What is not
refused is assessed, unless the tax itself overflows. A twelfth of a tax
never does.
-/
import Payroll.Proofs.IncomeTax.Partition
import Payroll.Rules.Senegal

namespace Payroll

open Decimal

-- ========================================================== one bracket

/-- What a bracket takes of an income: its fixed amount, and its rate of
what exceeds its lower bound. -/
def Bracket.due (b : Bracket) (income : Decimal) : Except Fault Decimal :=
  BracketTable.addSlice b.fixedAmount b.minIncome income b.rate

/-- At its lower bound a bracket takes its fixed amount. -/
theorem Bracket.exists_due_min {b : Bracket} {income : Decimal}
    (h : income ≈ b.minIncome) :
    ∃ due, b.due income = .ok due ∧ due ≈ b.fixedAmount := by
  rw [equiv_iff_toRat] at h
  have hzero : InRange 0 := toRat_zero ▸ inRange_toRat zero
  have hnearest : nearest 0 = 0 := by
    rw [← toRat_zero, nearest_toRat]
  obtain ⟨width, hwidth, hvalue⟩ :=
    (sub?_rounds income b.minIncome).exists_ok
      (by rwa [h, sub_self]) .subtractionOverflow
  rw [h, sub_self, hnearest] at hvalue
  obtain ⟨slice, hslice, hvalue'⟩ := (mul?_rounds width b.rate).exists_ok
    (by rwa [hvalue, zero_mul]) .multiplicationOverflow
  rw [hvalue, zero_mul, hnearest] at hvalue'
  obtain ⟨due, hdue, hvalue''⟩ := b.fixedAmount.exists_add_of_zero hvalue'
  exact ⟨due, bind_eq_ok.2 ⟨width, hwidth, bind_eq_ok.2 ⟨slice, hslice,
    hdue⟩⟩, equiv_iff_toRat.2 hvalue''⟩

namespace BracketTable

/-- The closed form leaves out a slice that has no width, and nothing
else. -/
theorem closedForm_agree_due {b : Bracket} {income : Decimal}
    (h : b.minIncome.toRat ≤ income.toRat) :
    Agree (closedForm b income) (b.due income) := by
  unfold closedForm
  split
  · rename_i hle
    obtain ⟨due, hdue, hvalue⟩ := Bracket.exists_due_min
      (equiv_iff_toRat.2 (le_antisymm (le_iff_toRat.1 hle) h))
    rw [hdue]
    exact equiv_symm hvalue
  · rw [slice_bind]
    exact addSlice_agree (equiv_refl _) (equiv_refl _) (equiv_refl _)
      (equiv_refl _)

theorem tax_agree_due (t : BracketTable) {income : Decimal}
    (h : 0 ≤ income.toRat) :
    Agree (t.tax income) (liftM ((t.bracketOf income).due income)) := by
  rw [t.tax_eq_closedForm h]
  exact (closedForm_agree_due (t.minIncome_bracketOf_le h)).lift

end BracketTable

namespace TaxSchedule

variable (s : TaxSchedule) {income x due : Decimal}

-- ====================================================== year and month

/-- Only an income that is too large has no year. -/
theorem yearly_eq_error {f : Failure} : s.yearly income = .error f
    ↔ (s.annualized = true ∧ ¬InRange (12 * income.toRat))
      ∧ .calculation (.incomeTooLarge income) = f := by
  unfold yearly
  by_cases hyear : s.annualized = true
  · have hrounds := mul?_rounds income months
    rw [toRat_months, mul_comm] at hrounds
    rw [if_pos hyear]
    cases hproduct : income.mul? months with
    | none =>
        rw [hproduct] at hrounds
        simp only [Except.error.injEq, hyear, true_and]
        exact (and_iff_right hrounds).symm
    | some annual =>
        rw [hproduct] at hrounds
        simp only [reduceCtorEq, false_iff]
        exact fun h => h.1.2 hrounds.1
  · simp [hyear]

/-- Every tax has a twelfth. -/
theorem exists_monthly (due : Decimal) : ∃ tax, s.monthly due = .ok tax := by
  unfold monthly
  by_cases hyear : s.annualized = true
  · have hne : months.toRat ≠ 0 := months_pos.ne'
    have hsmaller : |due.toRat / months.toRat| ≤ |due.toRat| := by
      rw [toRat_months, abs_div]
      exact div_le_self (abs_nonneg _) (by norm_num)
    obtain ⟨tax, htax, -⟩ := (div?_rounds due hne).exists_ok
      ((inRange_toRat due).of_abs_le hsmaller) .divisionOverflow
    rw [if_pos hyear]
    simp only [liftM_fault_eq_ok, div_eq_orFault due hne]
    exact ⟨tax, htax⟩
  · rw [if_neg hyear]
    exact ⟨due, rfl⟩

-- ============================================================= refusals

/-- Incomes that are refused: negative ones, and, where the brackets are
those of a year, those of which twelve times is too large. -/
def Rejects (income : Decimal) : Prop :=
  income < .zero ∨ s.annualized = true ∧ ¬InRange (12 * income.toRat)

theorem assess_of_rejects (h : s.Rejects income) :
    ∃ c, s.assess income = .error (.calculation c) := by
  rw [assess_eq]
  cases hx : s.yearly income with
  | error f =>
      obtain ⟨-, rfl⟩ := s.yearly_eq_error.1 hx
      exact ⟨_, rfl⟩
  | ok x =>
      have hneg : income < .zero := by
        refine h.resolve_right fun hlarge => ?_
        cases hx.symm.trans (s.yearly_eq_error.2 ⟨hlarge, rfl⟩)
      rw [lt_iff_toRat, toRat_zero] at hneg
      have hxneg : x < .zero := by
        rw [lt_iff_toRat, toRat_zero]
        by_contra hnonneg
        exact absurd (s.nonneg_of_yearly hx (not_lt.1 hnonneg)) hneg.not_ge
      rw [ok_bind, BracketTable.tax, if_pos hxneg]
      exact ⟨_, rfl⟩

/-- What is not refused is looked up. -/
theorem exists_yearly_of_not_rejects (h : ¬s.Rejects income) :
    ∃ x, s.yearly income = .ok x ∧ 0 ≤ x.toRat := by
  obtain ⟨hnonneg, hsmall⟩ := not_or.1 h
  rw [lt_iff_toRat, toRat_zero, not_lt] at hnonneg
  cases hx : s.yearly income with
  | error f => exact absurd (s.yearly_eq_error.1 hx).1 hsmall
  | ok x =>
      obtain ⟨x', hx', hnonneg', -⟩ :=
        s.exists_yearly_le hnonneg le_rfl hx
      cases hx.symm.trans hx'
      exact ⟨x, rfl, hnonneg'⟩

-- ========================================================== explanations

/-- An assessment of an income from which its tax can be worked out
again: it names the one bracket of the table, wherever it stands there,
that covers the income looked up, and the tax is what this bracket takes
of that income, or a twelfth of it. -/
structure Explains (income : Decimal) (t : TaxAssessment) : Prop where
  taxableIncome : t.taxableIncome = income
  annualized : t.annualized = s.annualized
  bracketIncome : s.yearly income = .ok t.bracketIncome
  bracket : ∃ i : Fin s.table.brackets.length,
    s.table.brackets[i] = t.bracket
      ∧ ∀ j : Fin s.table.brackets.length,
        s.table.brackets[j].Covers t.bracketIncome ↔ j = i
  tax : ∃ due tax, t.bracket.due t.bracketIncome = .ok due
    ∧ s.monthly due = .ok tax ∧ t.tax ≈ tax

theorem explains_of_assess {t : TaxAssessment}
    (h : s.assess income = .ok t) : s.Explains income t := by
  obtain ⟨x, due, tax, hx, hdue, htax, rfl⟩ := s.assess_eq_ok.1 h
  have hnonneg := s.table.income_nonneg hdue
  refine ⟨rfl, rfl, hx, ?_, ?_⟩
  · obtain ⟨i, hi, hunique⟩ := s.table.partition.unique x
      (by rwa [le_iff_toRat, toRat_zero])
    have hbracket := s.table.eq_bracketOf
      (List.getElem_mem i.2) hi hnonneg
    exact ⟨i, hbracket, fun j => ⟨hunique j, fun hj => hj ▸ hi⟩⟩
  · obtain ⟨due', hdue', hvalue⟩ :=
      (s.table.tax_agree_due hnonneg).exists_ok hdue
    obtain ⟨tax', htax', hvalue'⟩ := (s.monthly_agree
      (equiv_iff_toRat.2 hvalue.symm)).exists_ok htax
    exact ⟨due', tax', liftM_fault_eq_ok.1 hdue', htax',
      equiv_iff_toRat.2 hvalue'.symm⟩

/-- What is looked up fails by the tax or not at all. -/
theorem assess_of_yearly (hx : s.yearly income = .ok x)
    (hnonneg : 0 ≤ x.toRat) :
    (∃ t, s.assess income = .ok t)
    ∨ ∃ fault, (s.table.bracketOf x).due x = .error fault
      ∧ s.assess income = .error (.crash (.fault fault)) := by
  have hagree := (s.table.tax_agree_due hnonneg).symm
  rw [assess_eq, hx, ok_bind]
  cases hdue : (s.table.bracketOf x).due x with
  | ok due =>
      rw [hdue] at hagree
      obtain ⟨due', hdue', -⟩ := hagree.exists_ok rfl
      obtain ⟨tax, htax⟩ := s.exists_monthly due'
      rw [hdue', ok_bind, htax, ok_bind]
      exact .inl ⟨_, rfl⟩
  | error fault =>
      rw [hdue] at hagree
      rw [hagree.eq_error rfl]
      exact .inr ⟨fault, rfl, rfl⟩

/-- An assessment explains its tax. A calculation error is reported for
exactly the incomes that are to be refused, and every other failure is
an overflow in what the bracket of the income takes of it. -/
theorem assess_explained (s : TaxSchedule) (income : Decimal) :
    (∀ t, s.assess income = .ok t → s.Explains income t)
    ∧ ((∃ c, s.assess income = .error (.calculation c))
      ↔ s.Rejects income)
    ∧ ∀ f, s.assess income = .error f → ¬s.Rejects income →
      ∃ b ∈ s.table.brackets, ∃ x fault, s.yearly income = .ok x
        ∧ b.Covers x ∧ b.due x = .error fault
        ∧ f = .crash (.fault fault) := by
  refine ⟨fun t => s.explains_of_assess, ⟨?_, s.assess_of_rejects⟩, ?_⟩
  · rintro ⟨c, hc⟩
    by_contra hrejects
    obtain ⟨x, hx, hnonneg⟩ := s.exists_yearly_of_not_rejects hrejects
    obtain ⟨t, ht⟩ | ⟨fault, -, hfault⟩ := s.assess_of_yearly hx hnonneg
    · cases hc.symm.trans ht
    · cases hc.symm.trans hfault
  · intro f hf hrejects
    obtain ⟨x, hx, hnonneg⟩ := s.exists_yearly_of_not_rejects hrejects
    obtain ⟨t, ht⟩ | ⟨fault, hdue, hfault⟩ := s.assess_of_yearly hx hnonneg
    · cases hf.symm.trans ht
    · cases hf.symm.trans hfault
      exact ⟨_, s.table.bracketOf_mem x, x, fault, hx,
        s.table.covers_bracketOf hnonneg, hdue, rfl⟩

/-- A tenth of every income, in brackets of a month. -/
def tithe : TaxSchedule :=
  ⟨.gross, false, ⟨[⟨0, none, 0.1, 0⟩], by decide +kernel⟩⟩

/-- All of every income, in brackets of a month. The upper one of its
brackets has no room for the half unit that it starts at. -/
def allOfIt : TaxSchedule :=
  ⟨.gross, false,
    ⟨[⟨0, some 1.5, 1, 0⟩, ⟨1.5, none, 1, 1.5⟩], by decide +kernel⟩⟩

/-- The largest amount. -/
def most : Decimal := 79228162514264337593543950335

/-- Incomes of zero and at a threshold are explained, an income below
zero and one that has no year are refused, and there is a table whose
tax of the largest income does not fit. -/
theorem assess_explained_cases :
    (∃ t, Senegal.incomeTax.assess 0 = .ok t
      ∧ Senegal.incomeTax.Explains 0 t)
    ∧ (∃ t, Senegal.incomeTax.assess 125000 = .ok t
      ∧ t.bracket.minIncome ≈ t.bracketIncome
      ∧ Senegal.incomeTax.Explains 125000 t)
    ∧ (∃ c, Senegal.incomeTax.assess (-1) = .error (.calculation c))
    ∧ (∃ c, Senegal.incomeTax.assess most = .error (.calculation c))
    ∧ ∃ b ∈ allOfIt.table.brackets, ∃ x fault, b.Covers x
      ∧ b.due x = .error fault := by
  have hzero : Senegal.incomeTax.assess 0 = .ok {
      taxableIncome := 0, bracketIncome := 0
      bracket := ⟨0, some 630000, 0, 0⟩, annualized := true, tax := 0 } := by
    decide +kernel
  have hthreshold : Senegal.incomeTax.assess 125000 = .ok {
      taxableIncome := 125000, bracketIncome := 1500000
      bracket := ⟨1500000, some 4000000, 0.30, 174000⟩
      annualized := true, tax := 14500 } := by
    decide +kernel
  have hfault : allOfIt.assess most
      = .error (.crash (.fault .additionOverflow)) := by
    decide +kernel
  have hnot : ¬allOfIt.Rejects most := by
    unfold Rejects
    decide +kernel
  obtain ⟨hexplains, hrejects, -⟩ := assess_explained Senegal.incomeTax 0
  obtain ⟨b, hb, x, fault, -, hcovers, hdue, -⟩ :=
    (assess_explained allOfIt most).2.2 _ hfault hnot
  refine ⟨⟨_, hzero, hexplains _ hzero⟩, ⟨_, hthreshold, by decide,
    (assess_explained Senegal.incomeTax 125000).1 _ hthreshold⟩, ?_, ?_,
    b, hb, x, fault, hcovers, hdue⟩
  · exact (assess_explained Senegal.incomeTax (-1)).2.1.2 (.inl (by decide))
  · exact (assess_explained Senegal.incomeTax most).2.1.2
      (.inr ⟨rfl, by decide +kernel⟩)

/-- Brackets of a month take an income as it is, and twelve times it may
be as large as it will. -/
theorem assess_of_large_month :
    (∃ t, tithe.assess most = .ok t)
    ∧ ¬((∃ c, tithe.assess most = .error (.calculation c))
      ↔ most < .zero ∨ ¬InRange (12 * most.toRat)) := by
  have ht : tithe.assess most = .ok {
      taxableIncome := most, bracketIncome := most
      bracket := ⟨0, none, 0.1, 0⟩, annualized := false
      tax := .of 79228162514264337593543950335 1 } := by
    decide +kernel
  have hlarge : ¬InRange (12 * most.toRat) := by decide +kernel
  refine ⟨⟨_, ht⟩, fun hiff => ?_⟩
  obtain ⟨c, hc⟩ := hiff.2 (.inr hlarge)
  cases hc.symm.trans ht

end TaxSchedule

end Payroll
