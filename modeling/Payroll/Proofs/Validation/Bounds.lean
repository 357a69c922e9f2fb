/-
The bounds in exact terms. Amounts of at most four places whose
earnings stay below `10 ^ 20` leave nothing to round in the sums of the
estimate, and so its decimal bounds are bounds in the ordinary sense:

    tax + contributions + deductions, each term rounded up
      <= salary + allowances + overtime, each line rounded down.

Of the earnings the limit is assumed. Of everything that is taken off
it follows, because a valid report has compared it with the gross: the
sums only rise, so each of them lies below the last one.
-/
import Payroll.Proofs.IncomeTax.Monotone
import Payroll.Proofs.Validation.Estimate

namespace Payroll

open Decimal

/-- A request of which no sum or difference of money is rounded: its
amounts have at most four places, and what it can earn stays below
`10 ^ 20`. -/
structure Request.Moderate (r : Request) (s : Snapshot) : Prop extends
    r.InLedger where
  earnings_lt : ∀ hourlyRate o, s.hourlyRate r.baseSalary = .ok hourlyRate →
    Overtime.compute r.overtimeHours hourlyRate s.overtime = .ok o →
    r.baseSalary.toRat + total r.allowances.values
      + total (o.lines.map (·.amount.ceil)) < 10 ^ 20

variable {r : Request} {s : Snapshot}

/-- Salary and allowances. -/
def Request.fixed (r : Request) : ℚ :=
  r.baseSalary.toRat + total r.allowances.values

namespace Estimate

/-- An estimate of an accepted request whose earnings are moderate. -/
structure Grounded (e : Estimate r s) : Prop where
  snapshot : s.Proper
  request : Accepted r
  moderate : r.Moderate s

/-- An estimate behind a valid report. -/
structure Vetted (e : Estimate r s) : Prop where
  snapshot : s.Proper
  request : Accepted r
  moderate : r.Moderate s
  covered : Covered e.bounds

variable {e : Estimate r s}

theorem Vetted.grounded (h : e.Vetted) : e.Grounded :=
  ⟨h.snapshot, h.request, h.moderate⟩

-- =============================================================== the gross

theorem Grounded.amount_nonneg (h : e.Grounded) :
    ∀ l ∈ e.overtime.lines, 0 ≤ l.amount.toRat :=
  Overtime.amount_nonneg h.snapshot.overtime e.overtime_ok

/-- The earnings, each line of overtime rounded up, stay below the
limit. -/
theorem Grounded.earnings_lt (h : e.Grounded) :
    r.fixed + total (e.overtime.lines.map (·.amount.ceil)) < 10 ^ 20 :=
  h.moderate.earnings_lt _ _ e.hourlyRate_ok e.overtime_ok

theorem Grounded.fixedPay_eq (h : e.Grounded) :
    e.fixedPay.toRat = r.fixed ∧ Held e.fixedPay := by
  have hsalary := h.request.held_salary h.moderate.toInLedger
  have hpay := h.request.payable_allowances h.moderate.toInLedger
  have hlimit := h.earnings_lt
  have hceil := (payable_ceil h.amount_nonneg).nonneg
  unfold Request.fixed at hlimit ⊢
  obtain ⟨hallowances, hheld⟩ := hpay.toRat_sum
    (by linarith [hsalary.nonneg]) e.allowances_ok
  have hsum := hsalary.add_of_le hheld e.fixedPay_ok (by linarith)
  rwa [hallowances] at hsum

/-- Whatever the lines of overtime are rounded to, if it is not above
the ceiling: there is a gross, and it is exact. -/
theorem Grounded.exists_gross (h : e.Grounded) {f : OvertimeLine → Decimal}
    (hpay : Payable (e.overtime.lines.map f))
    (hle : ∀ l ∈ e.overtime.lines, (f l).toRat ≤ l.amount.ceil.toRat) :
    ∃ overtime gross,
      Decimal.sum (e.overtime.lines.map f) = .ok overtime
        ∧ e.fixedPay.add overtime = .ok gross
        ∧ gross.toRat = r.fixed + total (e.overtime.lines.map f)
        ∧ Held gross := by
  have hlimit := h.earnings_lt
  have htotal := total_map_le hle
  obtain ⟨hfixed, hheld⟩ := h.fixedPay_eq
  have hsum := hpay.exists_add_sum hheld (by rw [hfixed]; linarith)
  rwa [hfixed] at hsum

theorem Grounded.grossFloor_eq (h : e.Grounded) : e.grossFloor.toRat
    = r.fixed + total (e.overtime.lines.map (·.amount.floor))
      ∧ Held e.grossFloor := by
  obtain ⟨overtime, gross, hsum, hgross, hvalue⟩ := h.exists_gross
    (payable_floor h.amount_nonneg) fun l _ => toRat_floor_le_ceil _
  rw [e.overtimeFloor_ok] at hsum
  cases hsum
  rw [e.grossFloor_ok] at hgross
  cases hgross
  exact hvalue

theorem Grounded.grossCeiling_eq (h : e.Grounded) : e.grossCeiling.toRat
    = r.fixed + total (e.overtime.lines.map (·.amount.ceil))
      ∧ Held e.grossCeiling := by
  obtain ⟨overtime, gross, hsum, hgross, hvalue⟩ := h.exists_gross
    (payable_ceil h.amount_nonneg) fun l _ => le_rfl
  rw [e.overtimeCeiling_ok] at hsum
  cases hsum
  rw [e.grossCeiling_ok] at hgross
  cases hgross
  exact hvalue

theorem Grounded.grossCeiling_lt (h : e.Grounded) :
    e.grossCeiling.toRat < 10 ^ 20 := by
  rw [h.grossCeiling_eq.1]
  exact h.earnings_lt

theorem Grounded.grossFloor_le (h : e.Grounded) :
    e.grossFloor.toRat ≤ e.grossCeiling.toRat := by
  rw [h.grossFloor_eq.1, h.grossCeiling_eq.1]
  exact add_le_add_right (total_map_le fun l _ => toRat_floor_le_ceil _) _

-- ====================================================== what is taken off

/-- What the employee owes of the highest gross, each share rounded
up. -/
def mostOwed (e : Estimate r s) : ℚ :=
  (s.contributions.map fun c =>
    (⌈c.employeeDue e.grossCeiling.toRat⌉ : ℚ)).sum

/-- What the employee owes of the lowest gross, each share rounded
down. -/
def leastOwed (e : Estimate r s) : ℚ :=
  (s.contributions.map fun c =>
    (⌊c.employeeDue e.grossFloor.toRat⌋ : ℚ)).sum

/-- The ceilings that make up the withholdings. -/
theorem Grounded.payable_most (h : e.Grounded) :
    Payable (e.most.lines.map (·.employeeAmount.ceil)) :=
  payable_ceil
    (Contributions.employee_nonneg h.snapshot.contributions e.most_ok)

theorem held_tax (e : Estimate r s) : Held e.assessed.tax.ceil :=
  held_ceil (s.incomeTax.assess_nonneg e.assessed_ok)

theorem Grounded.held_adjustment (h : e.Grounded) :
    Held e.adjustment.delayPenalty.ceil
      ∧ Held e.adjustment.absenceDeduction.ceil := by
  obtain ⟨hpenalty, habsence⟩ :=
    Adjustment.compute_nonneg h.snapshot.attendance e.adjustment_ok
  exact ⟨held_ceil hpenalty, held_ceil habsence⟩

/-- A lower gross, rounded down, owes no more than a higher one, rounded
up. -/
theorem Grounded.leastOwed_le (h : e.Grounded) :
    e.leastOwed ≤ e.mostOwed := by
  refine List.sum_le_sum fun c hc => ?_
  have hdue := ContributionRate.employeeDue_mono
    (h.snapshot.contributions c hc) h.grossFloor_le
  exact (Int.floor_le _).trans (hdue.trans (Int.le_ceil _))

/-- Where the shares stay small enough, what is owed at least is
exact. -/
theorem Grounded.employeeFloor_eq (h : e.Grounded)
    (hlt : e.mostOwed < 10 ^ 20) :
    e.employeeFloor.toRat = e.leastOwed ∧ Held e.employeeFloor := by
  have hpay : Payable (e.least.lines.map (·.employeeAmount.floor)) :=
    payable_floor
      (Contributions.employee_nonneg h.snapshot.contributions e.least_ok)
  have htotal : total (e.least.lines.map (·.employeeAmount.floor))
      = e.leastOwed := Contributions.total_employee_floor e.least_ok
  have hle := h.leastOwed_le
  rw [← htotal]
  exact hpay.toRat_sum (by linarith) e.employeeFloor_ok

/-- Withholdings and deductions lie below their sum, and that one below
the gross. -/
theorem Vetted.taken_lt (h : e.Vetted) : ∃ taken,
    e.deductions.add e.withholdings = .ok taken
      ∧ taken.toRat ≤ e.grossFloor.toRat ∧ taken.toRat < 10 ^ 20
      ∧ 0 ≤ e.withholdings.toRat ∧ e.withholdings.toRat ≤ taken.toRat
      ∧ 0 ≤ e.deductions.toRat ∧ e.deductions.toRat ≤ taken.toRat := by
  obtain ⟨taken, htaken, hle⟩ := h.covered.total
  have hexplicit : 0 ≤ e.explicit.toRat :=
    toRat_sum_nonneg h.request.deductions_nonneg e.explicit_ok
  have hemployee : 0 ≤ e.employeeCeiling.toRat := toRat_sum_nonneg
    (fun a ha => (h.grounded.payable_most a ha).nonneg) e.employeeCeiling_ok
  obtain ⟨hpenalty, habsence⟩ := h.grounded.held_adjustment
  have hwithholdings := e.held_tax.nonneg.trans
    (toRat_le_add_left hemployee e.withholdings_ok)
  have hpenalized := hexplicit.trans
    (toRat_le_add_left hpenalty.nonneg e.penalized_ok)
  have hdeductions := hpenalized.trans
    (toRat_le_add_left habsence.nonneg e.deductions_ok)
  refine ⟨taken, htaken, hle, ?_, hwithholdings, ?_, hdeductions, ?_⟩
  · exact hle.trans_lt
      (h.grounded.grossFloor_le.trans_lt h.grounded.grossCeiling_lt)
  · exact toRat_le_add_right hdeductions htaken
  · exact toRat_le_add_left hwithholdings htaken

theorem Vetted.employeeCeiling_eq (h : e.Vetted) :
    e.employeeCeiling.toRat = e.mostOwed ∧ Held e.employeeCeiling := by
  obtain ⟨taken, -, -, hlt, -, hwithholdings, -, -⟩ := h.taken_lt
  have hle := toRat_le_add_right e.held_tax.nonneg e.withholdings_ok
  have htotal : total (e.most.lines.map (·.employeeAmount.ceil))
      = e.mostOwed := Contributions.total_employee_ceil e.most_ok
  rw [← htotal]
  exact h.grounded.payable_most.sum e.employeeCeiling_ok (by linarith)

theorem Vetted.mostOwed_lt (h : e.Vetted) : e.mostOwed < 10 ^ 20 := by
  obtain ⟨taken, -, -, hlt, -, hwithholdings, -, -⟩ := h.taken_lt
  rw [← h.employeeCeiling_eq.1]
  have := toRat_le_add_right e.held_tax.nonneg e.withholdings_ok
  linarith

theorem Vetted.explicit_eq (h : e.Vetted) :
    e.explicit.toRat = total r.deductions.values ∧ Held e.explicit := by
  obtain ⟨taken, -, -, hlt, -, -, -, hdeductions⟩ := h.taken_lt
  obtain ⟨hpenalty, habsence⟩ := h.grounded.held_adjustment
  have hpenalized := toRat_le_add_left hpenalty.nonneg e.penalized_ok
  have hlast := toRat_le_add_left habsence.nonneg e.deductions_ok
  exact (h.request.payable_deductions h.moderate.toInLedger).sum e.explicit_ok
    (by linarith)

/-- The bounds of a valid report in exact terms: the taxes and
contributions, the deductions, and the gross that covers them. -/
theorem Vetted.covered_exact (h : e.Vetted) :
    e.assessed.tax.ceil.toRat + e.mostOwed
      + (total r.deductions.values + e.adjustment.delayPenalty.ceil.toRat
        + e.adjustment.absenceDeduction.ceil.toRat)
      ≤ e.grossFloor.toRat := by
  obtain ⟨taken, htaken, hle, hlt, -, hwithholdings, -, hdeductions⟩ :=
    h.taken_lt
  obtain ⟨hpenalty, habsence⟩ := h.grounded.held_adjustment
  obtain ⟨hexplicit, hheld⟩ := h.explicit_eq
  obtain ⟨hemployee, hheld'⟩ := h.employeeCeiling_eq
  have hlast := toRat_le_add_left habsence.nonneg e.deductions_ok
  obtain ⟨hpenalized, hheldp⟩ :=
    hheld.add hpenalty e.penalized_ok (by linarith)
  obtain ⟨hsum, hheldd⟩ := hheldp.add habsence e.deductions_ok (by linarith)
  obtain ⟨hsum', hheldw⟩ :=
    e.held_tax.add hheld' e.withholdings_ok (by linarith)
  obtain ⟨hall, -⟩ := hheldd.add hheldw htaken (by linarith)
  rw [hall, hsum, hsum', hpenalized, hexplicit, hemployee] at hle
  linarith

end Estimate

end Payroll
