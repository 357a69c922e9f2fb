/-
How much of an income a tax can take. Where no rate of a table exceeds
a share `k`, and no fixed amount exceeds that share of the lower bound
of its bracket, the closed form is no more than `k` of the income: the
fixed amount takes no more of the part below the bracket, and the rate
no more of the part in it.

The lemmas say too that there is a tax. An income of 27 digits before
the point has room for every step of the closed form, and each step
that rounds adds one half at most: three of them in the table, one or
two more where the brackets are those of a year.
-/
import Payroll.Proofs.IncomeTax.Monotone

namespace Payroll

open Decimal

namespace BracketTable

/-- A bracket that takes no more than a share of any income in it. -/
structure TakesAtMost (k : ℚ) (b : Bracket) : Prop where
  fixed_nonneg : 0 ≤ b.fixedAmount.toRat
  fixed_le : b.fixedAmount.toRat ≤ k * b.minIncome.toRat
  rate_le : b.rate.toRat ≤ k

instance (k : ℚ) (b : Bracket) : Decidable (TakesAtMost k b) :=
  decidable_of_iff (0 ≤ b.fixedAmount.toRat
      ∧ b.fixedAmount.toRat ≤ k * b.minIncome.toRat ∧ b.rate.toRat ≤ k)
    ⟨fun h => ⟨h.1, h.2.1, h.2.2⟩,
      fun h => ⟨h.fixed_nonneg, h.fixed_le, h.rate_le⟩⟩

variable {k : ℚ}

/-- The closed form of a bracket that an income reaches. -/
theorem exists_closedForm_le {b : Bracket} (hb : TakesAtMost k b)
    (hproper : Proper b) (hbound : 0 ≤ b.minIncome.toRat)
    {income : Decimal} (hmin : b.minIncome.toRat ≤ income.toRat)
    (hle : income.toRat ≤ 10 ^ 27) (hk : k ≤ 1) :
    ∃ due, closedForm b income = .ok due
      ∧ due.toRat ≤ k * income.toRat + 3 / 2 := by
  have hrate := hproper.rate_nonneg
  have hk' := hrate.trans hb.rate_le
  have hbelow := mul_le_mul_of_nonneg_left hmin hk'
  have hfixed := hb.fixed_nonneg
  have hfixed' := hb.fixed_le
  unfold closedForm
  by_cases hstop : income ≤ b.minIncome
  · rw [if_pos hstop]
    exact ⟨_, rfl, by linarith⟩
  · rw [if_neg hstop]
    obtain ⟨width, hwidth, hnonneg, hnear⟩ :=
      (sub?_rounds income b.minIncome).exists_near (sub_nonneg.2 hmin)
        (by linarith) .subtractionOverflow
    have hshare : width.toRat * b.rate.toRat
        ≤ k * (income.toRat - b.minIncome.toRat) + 1 / 2 := by
      calc width.toRat * b.rate.toRat
          ≤ width.toRat * k := mul_le_mul_of_nonneg_left hb.rate_le hnonneg
        _ ≤ (income.toRat - b.minIncome.toRat + 1 / 2) * k :=
            mul_le_mul_of_nonneg_right hnear hk'
        _ ≤ k * (income.toRat - b.minIncome.toRat) + 1 / 2 := by linarith
    have hsize : k * income.toRat ≤ 10 ^ 27 := by
      have := mul_le_of_le_one_left (hbound.trans hmin) hk
      linarith
    obtain ⟨slice, hslice, hslicenonneg, hslicenear⟩ :=
      exists_mul_near hnonneg hrate (by linarith)
    obtain ⟨due, hdue, -, hduenear⟩ :=
      (add?_rounds b.fixedAmount slice).exists_near
        (add_nonneg hfixed hslicenonneg) (by linarith) .additionOverflow
    refine ⟨due, ?_, by linarith⟩
    rw [show b.slice income = .ok slice from
      bind_eq_ok.2 ⟨width, hwidth, hslice⟩]
    exact hdue

/-- There is a tax, and it takes no more than the share. -/
theorem exists_tax_le_share (t : BracketTable)
    (ht : ∀ b ∈ t.brackets, TakesAtMost k b) (hk : k ≤ 1)
    {income : Decimal} (hnonneg : 0 ≤ income.toRat)
    (hle : income.toRat ≤ 10 ^ 27) :
    ∃ due, t.tax income = .ok due
      ∧ due.toRat ≤ k * income.toRat + 3 / 2 := by
  have hmem := t.bracketOf_mem income
  obtain ⟨due, hdue, hshare⟩ := exists_closedForm_le (ht _ hmem)
    (t.proper _ hmem) (t.minIncome_nonneg _ hmem)
    (t.minIncome_bracketOf_le hnonneg) hle hk
  refine ⟨due, ?_, hshare⟩
  rw [tax_eq_closedForm t hnonneg, hdue]
  rfl

end BracketTable

namespace TaxSchedule

variable {k : ℚ}

/-- A month's income of 25 digits before the point is assessed, and two
units are added to the share at most. -/
theorem exists_assess_le_share (s : TaxSchedule)
    (hs : ∀ b ∈ s.table.brackets, BracketTable.TakesAtMost k b)
    (hk : k ≤ 1) {income : Decimal} (hnonneg : 0 ≤ income.toRat)
    (hle : income.toRat ≤ 10 ^ 25) :
    ∃ t, s.assess income = .ok t
      ∧ t.tax.toRat ≤ k * income.toRat + 2 := by
  by_cases hyear : s.annualized = true
  · obtain ⟨x, hx, hxnonneg, hxnear⟩ :=
      exists_mul_near hnonneg months_pos.le
        (by rw [toRat_months]; linarith)
    rw [toRat_months] at hxnear
    obtain ⟨due, hdue, hshare⟩ :=
      s.table.exists_tax_le_share hs hk hxnonneg (by linarith)
    have hdue' := s.table.tax_nonneg hdue
    have hmem := s.table.bracketOf_mem x
    have hk' : 0 ≤ k :=
      (s.table.proper _ hmem).rate_nonneg.trans (hs _ hmem).rate_le
    have hyearly : k * x.toRat ≤ 12 * (k * income.toRat) + 1 / 2 := by
      have := mul_le_mul_of_nonneg_left hxnear hk'
      linarith
    have hshare' := mul_le_of_le_one_left hnonneg hk
    obtain ⟨tax, htax, -, hnear⟩ :=
      exists_div_near hdue' months_pos (by rw [toRat_months]; linarith)
    rw [toRat_months] at hnear
    refine ⟨_, s.assess_eq_ok.2 ⟨x, due, tax, (s.yearly_eq_ok hyear).2 hx,
      hdue, ?_, rfl⟩, ?_⟩
    · rw [monthly, if_pos hyear, liftM_fault_eq_ok]
      exact htax
    · show tax.toRat ≤ _
      linarith
  · obtain ⟨due, hdue, hshare⟩ :=
      s.table.exists_tax_le_share hs hk hnonneg (by linarith)
    refine ⟨_, s.assess_eq_ok.2 ⟨income, due, due, ?_, hdue, ?_, rfl⟩, ?_⟩
    · rw [yearly, if_neg hyear]
    · rw [monthly, if_neg hyear]
    · show due.toRat ≤ _
      linarith

end TaxSchedule

end Payroll
