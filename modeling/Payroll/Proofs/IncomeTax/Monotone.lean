/-
More income, more tax. On the walk this can be seen bracket by bracket:
of two incomes the smaller one fills a smaller part of every bracket,
each part is taxed at a rate that is not negative, and the sums are
rounded in a way that keeps the order. Nothing like it can be read off
the closed form, where the two incomes may fall in different brackets
with fixed amounts of their own; the closed form inherits it from the
walk.

The statements also carry the result across: where the tax of an income
exists, the tax of every smaller one does, so a bound that was
calculated vouches for what it bounds.
-/
import Payroll.IncomeTax.Schedule
import Payroll.Proofs.Decimal.Ledger
import Payroll.Proofs.IncomeTax.Walk

namespace Payroll

open Decimal

namespace BracketTable

/-- A bracket of a checked table: a rate that takes nothing below zero
and no more than all, and an upper bound above the lower one. -/
structure Proper (b : Bracket) : Prop where
  rate_nonneg : 0 ≤ b.rate.toRat
  rate_le_one : b.rate.toRat ≤ 1
  min_lt_max : ∀ upper, b.maxIncome = some upper →
    b.minIncome.toRat < upper.toRat

theorem IsShare.bounds {rate : Decimal} (h : IsShare rate) :
    0 ≤ rate.toRat ∧ rate.toRat ≤ 1 := by
  rw [IsShare, le_iff_toRat, le_iff_toRat, toRat_zero, toRat_one] at h
  exact h

theorem WellFormedFrom.proper {tax : Decimal} {brackets : List Bracket}
    (h : WellFormedFrom tax brackets) : ∀ b ∈ brackets, Proper b := by
  induction brackets generalizing tax with
  | nil => exact List.forall_mem_nil _
  | cons b rest ih =>
      obtain ⟨hnonneg, hle⟩ := (h.rates b List.mem_cons_self).bounds
      cases rest with
      | nil =>
          obtain ⟨-, -, hmax⟩ := wellFormedFrom_singleton.1 h
          rw [List.forall_mem_singleton]
          refine ⟨hnonneg, hle, fun upper hupper => ?_⟩
          rw [hmax] at hupper
          cases hupper
      | cons next above =>
          obtain ⟨-, -, ⟨upper, hmax, hwidth, -⟩, _, -, hrest⟩ :=
            wellFormedFrom_cons_cons.1 h
          refine List.forall_mem_cons.2
            ⟨⟨hnonneg, hle, fun upper' hupper' => ?_⟩, ih hrest⟩
          rw [hmax] at hupper'
          cases hupper'
          exact lt_iff_toRat.1 hwidth

theorem proper (t : BracketTable) : ∀ b ∈ t.brackets, Proper b :=
  t.wellFormed.toWellFormedFrom.proper

theorem bracketOf_mem (t : BracketTable) (income : Decimal) :
    t.bracketOf income ∈ t.brackets := by
  rw [bracketOf_eq]
  cases h : reached? income t.brackets with
  | none => exact List.head_mem t.brackets_ne_nil
  | some b => exact List.mem_reverse.1 (List.mem_of_find?_eq_some h)

theorem minIncome_nonneg (t : BracketTable) :
    ∀ b ∈ t.brackets, 0 ≤ b.minIncome.toRat := by
  obtain ⟨first, rest, hbrackets, hfirst⟩ := t.exists_first
  have hrising := hbrackets ▸ t.rising
  rw [hbrackets]
  refine List.forall_mem_cons.2 ⟨hfirst.ge, fun b hb => ?_⟩
  exact hfirst.ge.trans ((List.pairwise_cons.1 hrising).1 b hb).le

/-- The bracket of an income starts at or below it. -/
theorem minIncome_bracketOf_le (t : BracketTable) {income : Decimal}
    (h : 0 ≤ income.toRat) :
    (t.bracketOf income).minIncome.toRat ≤ income.toRat := by
  rw [bracketOf_eq]
  cases hreached : reached? income t.brackets with
  | some b =>
      rw [reached?] at hreached
      have hle := List.find?_some hreached
      exact le_iff_toRat.1 (of_decide_eq_true hle)
  | none =>
      obtain ⟨first, rest, hbrackets, hfirst⟩ := t.exists_first
      simp only [hbrackets, List.head_cons, Option.getD_none, hfirst]
      exact h

-- ============================================================ one bracket

/-- A lower slice of a bracket is taxed less. -/
theorem exists_slice_le {b : Bracket} (hb : Proper b)
    {upper upper' w : Decimal} (h : b.slice upper = .ok w)
    (hmin : b.minIncome.toRat ≤ upper'.toRat)
    (hle : upper'.toRat ≤ upper.toRat) :
    ∃ w', b.slice upper' = .ok w' ∧ 0 ≤ w'.toRat
      ∧ w'.toRat ≤ w.toRat := by
  obtain ⟨width, hwidth, hw⟩ := bind_eq_ok.1 h
  obtain ⟨width', hwidth', hnonneg, hle'⟩ :=
    exists_sub_le hwidth hmin hle
  obtain ⟨w', hw', hnonneg', hle''⟩ :=
    exists_mul_le hw hnonneg hb.rate_nonneg hle'
  exact ⟨w', bind_eq_ok.2 ⟨width', hwidth', hw'⟩, hnonneg', hle''⟩

/-- An income that exceeds a bracket's lower bound has its slice end
above that bound. -/
theorem le_slicedTo {b : Bracket} (hb : Proper b) {income : Decimal}
    (h : b.minIncome.toRat < income.toRat) :
    b.minIncome.toRat ≤ (slicedTo b income).toRat := by
  unfold slicedTo
  split
  · rename_i upper hupper
    rw [toRat_min]
    exact le_min h.le (hb.min_lt_max upper hupper).le
  · exact h.le

theorem slicedTo_mono (b : Bracket) {income income' : Decimal}
    (h : income'.toRat ≤ income.toRat) :
    (slicedTo b income').toRat ≤ (slicedTo b income).toRat := by
  unfold slicedTo
  split
  · rw [toRat_min, toRat_min]
    exact min_le_min_right _ h
  · exact h

/-- What one step of a walk has done that went on past a bracket. -/
theorem walk_cons_eq_ok {income tax t : Decimal} {b : Bracket}
    {rest : List Bracket} (hmin : b.minIncome.toRat < income.toRat)
    (h : walk income tax (b :: rest) = .ok t) :
    ∃ slice tax', b.slice (slicedTo b income) = .ok slice
      ∧ tax.add slice = .ok tax' ∧ walk income tax' rest = .ok t := by
  have hbelow : ¬income ≤ b.minIncome := by
    rw [le_iff_toRat, not_le]
    exact hmin
  rw [walk_cons, if_neg hbelow, bind_eq_ok] at h
  obtain ⟨slice, hslice, h⟩ := h
  obtain ⟨tax', htax', h⟩ := bind_eq_ok.1 h
  exact ⟨slice, tax', hslice, htax', h⟩

-- =============================================================== the walk

/-- A walk never takes back what was added up. -/
theorem le_walk {income : Decimal} {brackets : List Bracket}
    (hbrackets : ∀ b ∈ brackets, Proper b) {tax t : Decimal}
    (h : walk income tax brackets = .ok t) : tax.toRat ≤ t.toRat := by
  induction brackets generalizing tax with
  | nil =>
      cases h
      exact le_rfl
  | cons b rest ih =>
      have hb := hbrackets b List.mem_cons_self
      rcases le_or_gt income.toRat b.minIncome.toRat with hle | hlt
      · rw [walk_of_le hle] at h
        cases h
        exact le_rfl
      · obtain ⟨slice, tax', hslice, htax', h⟩ := walk_cons_eq_ok hlt h
        obtain ⟨slice', hslice', hnonneg, -⟩ :=
          exists_slice_le hb hslice (le_slicedTo hb hlt) le_rfl
        rw [hslice] at hslice'
        cases hslice'
        exact (toRat_le_add_left hnonneg htax').trans
          (ih (fun b' hb' => hbrackets b' (List.mem_cons_of_mem b hb')) h)

/-- Side by side, the walk of the smaller income stays below. -/
theorem exists_walk_le {income income' : Decimal}
    (hle : income'.toRat ≤ income.toRat) {brackets : List Bracket}
    (hbrackets : ∀ b ∈ brackets, Proper b) {tax tax' t : Decimal}
    (hnonneg : 0 ≤ tax'.toRat) (htax : tax'.toRat ≤ tax.toRat)
    (h : walk income tax brackets = .ok t) :
    ∃ t', walk income' tax' brackets = .ok t' ∧ 0 ≤ t'.toRat
      ∧ t'.toRat ≤ t.toRat := by
  induction brackets generalizing tax tax' with
  | nil =>
      cases h
      exact ⟨tax', rfl, hnonneg, htax⟩
  | cons b rest ih =>
      have hb := hbrackets b List.mem_cons_self
      have hrest : ∀ b' ∈ rest, Proper b' := fun b' hb' =>
        hbrackets b' (List.mem_cons_of_mem b hb')
      rcases le_or_gt income'.toRat b.minIncome.toRat with hle' | hlt
      · -- the smaller income is done, the larger one may go on
        exact ⟨tax', walk_of_le hle', hnonneg,
          htax.trans (le_walk hbrackets h)⟩
      · obtain ⟨slice, sum, hslice, hsum, h⟩ :=
          walk_cons_eq_ok (hlt.trans_le hle) h
        obtain ⟨slice', hslice', hnonneg', hle''⟩ :=
          exists_slice_le hb hslice (le_slicedTo hb hlt)
            (slicedTo_mono b hle)
        obtain ⟨sum', hsum', hnonneg'', hsumle⟩ :=
          exists_add_le hsum hnonneg hnonneg' htax hle''
        obtain ⟨t', ht', hfinal⟩ := ih hrest hnonneg'' hsumle h
        exact ⟨t', walk_of_lt hlt hslice' hsum' ht', hfinal⟩

/-- The tax of a smaller income is no higher, and there is one. -/
theorem exists_tax_le (t : BracketTable) {income income' due : Decimal}
    (hnonneg : 0 ≤ income'.toRat) (hle : income'.toRat ≤ income.toRat)
    (h : t.tax income = .ok due) :
    ∃ due', t.tax income' = .ok due' ∧ 0 ≤ due'.toRat
      ∧ due'.toRat ≤ due.toRat := by
  obtain ⟨walked, hwalked, hvalue⟩ :=
    (tax_agree_of_nonneg t (hnonneg.trans hle)).exists_ok h
  rw [marginalTax_eq_walk t (hnonneg.trans hle), liftM_fault_eq_ok]
    at hwalked
  obtain ⟨walked', hwalked', hnonneg', hle'⟩ :=
    exists_walk_le hle t.proper (by rw [toRat_zero]) le_rfl hwalked
  have hagree := tax_agree_of_nonneg t hnonneg
  rw [marginalTax_eq_walk t hnonneg, hwalked'] at hagree
  obtain ⟨due', hdue', hvalue'⟩ := hagree.symm.exists_ok rfl
  refine ⟨due', hdue', ?_, ?_⟩
  · rw [hvalue']
    exact hnonneg'
  · rw [hvalue', ← hvalue]
    exact hle'

/-- A negative income has no tax. -/
theorem income_nonneg (t : BracketTable) {income due : Decimal}
    (h : t.tax income = .ok due) : 0 ≤ income.toRat := by
  by_contra hneg
  rw [not_le, ← toRat_zero, ← lt_iff_toRat] at hneg
  rw [tax, if_pos hneg] at h
  cases h

/-- No tax is negative. -/
theorem tax_nonneg (t : BracketTable) {income due : Decimal}
    (h : t.tax income = .ok due) : 0 ≤ due.toRat := by
  obtain ⟨due', hdue', hnonneg, -⟩ :=
    t.exists_tax_le (t.income_nonneg h) le_rfl h
  rw [h] at hdue'
  cases hdue'
  exact hnonneg

end BracketTable

-- ========================================================= taxable incomes

namespace TaxBase

/-- What is taxable of a gross value. -/
def taxed (base : TaxBase) (gross contributions : ℚ) : ℚ :=
  match base with
  | .gross => gross
  | .grossLessEmployeeContributions => gross - contributions

theorem taxed_le (base : TaxBase) {gross contributions : ℚ}
    (h : 0 ≤ contributions) : base.taxed gross contributions ≤ gross := by
  cases base with
  | gross => exact le_rfl
  | grossLessEmployeeContributions => exact sub_le_self _ h

/-- Amounts of a ledger have a taxable income, the exact one. -/
theorem exists_taxableIncome (base : TaxBase)
    {gross contributions : Decimal} (hgross : Held gross)
    (hcontributions : Held contributions) (hle : gross.toRat ≤ 10 ^ 23)
    (hle' : contributions.toRat ≤ 10 ^ 23) :
    ∃ taxable, base.taxableIncome gross contributions = .ok taxable
      ∧ taxable.toRat = base.taxed gross.toRat contributions.toRat
      ∧ InLedger taxable.toRat := by
  cases base with
  | gross => exact ⟨gross, rfl, rfl, hgross.inLedger⟩
  | grossLessEmployeeContributions =>
      have hnonneg := hgross.nonneg
      have hnonneg' := hcontributions.nonneg
      obtain ⟨taxable, htaxable, hvalue⟩ := exists_sub hgross.inLedger
        hcontributions.inLedger (abs_le.2 ⟨by linarith, by linarith⟩)
      exact ⟨taxable, htaxable, hvalue,
        hvalue ▸ hgross.inLedger.sub hcontributions.inLedger⟩

end TaxBase

namespace TaxSchedule

-- ============================================================= schedules

variable (s : TaxSchedule)

/-- The income that a schedule looks up: that of a year where its
brackets are those of a year. -/
def yearly (income : Decimal) : Except Failure Decimal :=
  if s.annualized then
    match income.mul? months with
    | some annual => .ok annual
    | none => .error (.calculation (.incomeTooLarge income))
  else .ok income

/-- The part of a tax that falls on one month. -/
def monthly (due : Decimal) : Except Failure Decimal :=
  if s.annualized then liftM (due.div months) else .ok due

theorem assess_eq (income : Decimal) : s.assess income
    = s.yearly income >>= fun bracketIncome =>
      s.table.tax bracketIncome >>= fun due =>
      s.monthly due >>= fun tax => .ok {
        taxableIncome := income, bracketIncome
        bracket := s.table.bracketOf bracketIncome
        annualized := s.annualized, tax } := by
  unfold assess yearly monthly
  cases s.annualized with
  | false => rfl
  | true =>
      cases income.mul? months with
      | none => rfl
      | some annual => rfl

theorem assess_eq_ok {income : Decimal} {t : TaxAssessment} :
    s.assess income = .ok t ↔ ∃ bracketIncome due tax,
      s.yearly income = .ok bracketIncome
        ∧ s.table.tax bracketIncome = .ok due ∧ s.monthly due = .ok tax
        ∧ {
          taxableIncome := income, bracketIncome
          bracket := s.table.bracketOf bracketIncome
          annualized := s.annualized, tax } = t := by
  simp only [assess_eq, bind_eq_ok, Except.ok.injEq]
  constructor
  · rintro ⟨x, hx, due, hdue, tax, htax, h⟩
    exact ⟨x, due, tax, hx, hdue, htax, h⟩
  · rintro ⟨x, due, tax, hx, hdue, htax, h⟩
    exact ⟨x, hx, due, hdue, tax, htax, h⟩

theorem toRat_months : months.toRat = 12 := by
  rw [months, toRat_ofNat]
  norm_num

theorem months_pos : 0 < months.toRat := by
  rw [toRat_months]
  norm_num

theorem yearly_eq_ok (h : s.annualized = true) {income x : Decimal} :
    s.yearly income = .ok x ↔ income.mul months = .ok x := by
  unfold yearly
  rw [if_pos h, mul, orFault_eq_ok]
  cases income.mul? months <;> simp

theorem exists_yearly_le {income income' x : Decimal}
    (hnonneg : 0 ≤ income'.toRat) (hle : income'.toRat ≤ income.toRat)
    (h : s.yearly income = .ok x) :
    ∃ x', s.yearly income' = .ok x' ∧ 0 ≤ x'.toRat
      ∧ x'.toRat ≤ x.toRat := by
  by_cases hyear : s.annualized = true
  · rw [s.yearly_eq_ok hyear] at h
    simp only [s.yearly_eq_ok hyear]
    exact exists_mul_le h hnonneg months_pos.le hle
  · rw [yearly, if_neg hyear] at h
    cases h
    exact ⟨income', by rw [yearly, if_neg hyear], hnonneg, hle⟩

theorem exists_monthly_le {due due' tax : Decimal}
    (hnonneg : 0 ≤ due'.toRat) (hle : due'.toRat ≤ due.toRat)
    (h : s.monthly due = .ok tax) :
    ∃ tax', s.monthly due' = .ok tax' ∧ 0 ≤ tax'.toRat
      ∧ tax'.toRat ≤ tax.toRat := by
  by_cases hyear : s.annualized = true
  · rw [monthly, if_pos hyear, liftM_fault_eq_ok] at h
    simp only [monthly, if_pos hyear, liftM_fault_eq_ok]
    exact exists_div_le h hnonneg months_pos hle
  · rw [monthly, if_neg hyear] at h
    cases h
    exact ⟨due', by rw [monthly, if_neg hyear], hnonneg, hle⟩

/-- Taxes of one value have twelfths of one value. -/
theorem monthly_agree {due due' : Decimal} (h : due ≈ due') :
    Agree (s.monthly due) (s.monthly due') := by
  unfold monthly
  split
  · have hrounds := div?_rounds due' months_pos.ne'
    rw [← equiv_iff_toRat.1 h] at hrounds
    rw [div_eq_orFault due months_pos.ne', div_eq_orFault due' months_pos.ne']
    exact ((div?_rounds due months_pos.ne').agree hrounds _).lift
  · exact h

/-- The income of a year is negative where that of a month is, whatever
it is rounded to. -/
theorem nonneg_of_yearly {income x : Decimal}
    (hx : s.yearly income = .ok x) (h : 0 ≤ x.toRat) :
    0 ≤ income.toRat := by
  by_cases hyear : s.annualized = true
  · rw [s.yearly_eq_ok hyear] at hx
    by_contra hneg
    have hle := nearest_mono
      (show income.toRat * 12 ≤ income.toRat by linarith)
    rw [nearest_toRat, ← toRat_months, ← toRat_mul hx] at hle
    linarith
  · rw [yearly, if_neg hyear] at hx
    cases hx
    exact h

/-- A negative income is not assessed. -/
theorem income_nonneg {income : Decimal} {t : TaxAssessment}
    (h : s.assess income = .ok t) : 0 ≤ income.toRat := by
  obtain ⟨x, due, tax, hx, hdue, -, -⟩ := s.assess_eq_ok.1 h
  exact s.nonneg_of_yearly hx (s.table.income_nonneg hdue)

theorem assess_nonneg {income : Decimal} {t : TaxAssessment}
    (h : s.assess income = .ok t) : 0 ≤ t.tax.toRat := by
  obtain ⟨x, due, tax, -, hdue, htax, rfl⟩ := s.assess_eq_ok.1 h
  obtain ⟨tax', htax', hnonneg, -⟩ :=
    s.exists_monthly_le (s.table.tax_nonneg hdue) le_rfl htax
  rw [htax] at htax'
  cases htax'
  exact hnonneg

/-- A smaller taxable income is assessed no higher. -/
theorem exists_assess_le {income income' : Decimal} {t : TaxAssessment}
    (hnonneg : 0 ≤ income'.toRat) (hle : income'.toRat ≤ income.toRat)
    (h : s.assess income = .ok t) :
    ∃ t', s.assess income' = .ok t' ∧ 0 ≤ t'.tax.toRat
      ∧ t'.tax.toRat ≤ t.tax.toRat := by
  obtain ⟨x, due, tax, hx, hdue, htax, rfl⟩ := s.assess_eq_ok.1 h
  obtain ⟨x', hx', hxnonneg, hxle⟩ := s.exists_yearly_le hnonneg hle hx
  obtain ⟨due', hdue', hduenonneg, hduele⟩ :=
    s.table.exists_tax_le hxnonneg hxle hdue
  obtain ⟨tax', htax', htaxnonneg, htaxle⟩ :=
    s.exists_monthly_le hduenonneg hduele htax
  exact ⟨_, s.assess_eq_ok.2 ⟨x', due', tax', hx', hdue', htax', rfl⟩,
    htaxnonneg, htaxle⟩

-- ===================================================== the marginal walk

/-- The tax of a month by the walk through the brackets. -/
def marginalTax (income : Decimal) : Except Failure Decimal := do
  let bracketIncome ← s.yearly income
  let due ← s.table.marginalTax bracketIncome
  s.monthly due

/-- An assessment comes to the tax of the walk. -/
theorem exists_marginalTax {income : Decimal} {t : TaxAssessment}
    (h : s.assess income = .ok t) : t.taxableIncome = income
      ∧ ∃ tax, s.marginalTax income = .ok tax ∧ tax ≈ t.tax := by
  obtain ⟨x, due, tax, hx, hdue, htax, rfl⟩ := s.assess_eq_ok.1 h
  obtain ⟨walked, hwalked, hvalue⟩ := (BracketTable.tax_agree_of_nonneg
    s.table (s.table.income_nonneg hdue)).exists_ok hdue
  obtain ⟨tax', htax', hvalue'⟩ := (s.monthly_agree
    (equiv_iff_toRat.2 hvalue.symm)).exists_ok htax
  refine ⟨rfl, tax', ?_, equiv_iff_toRat.2 hvalue'⟩
  rw [marginalTax, hx, ok_bind, hwalked, ok_bind]
  exact htax'

end TaxSchedule

end Payroll
