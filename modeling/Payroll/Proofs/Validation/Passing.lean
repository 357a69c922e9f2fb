/-
What passes validation. The checks of a request are read forwards here:
a request that is in order (`Request.Orderly`) gives each of them
nothing to forbid, though some may have something to announce. Where
the amounts of an estimate exist they are what the bounds are computed
from, and bounds that are covered add no finding. Together that makes a
valid report (`exists_valid_report`).
-/
import Payroll.Proofs.Earnings
import Payroll.Proofs.Validation.Estimate

namespace Payroll

open Decimal

variable {r : Request} {s : Snapshot} {asOf : Date}

/-- A named amount that no check objects to. -/
def OrderlyAmount (e : String × Decimal) : Prop :=
  Text.isBlankText e.1 = false ∧ 0 ≤ e.2.toRat

/-- A request that no check of a single thing objects to. -/
structure Request.Orderly (r : Request) (s : Snapshot) (asOf : Date) :
    Prop where
  named : Text.isBlankText r.employeeId = false
  salary_pos : 0 < r.baseSalary.toRat
  minimumWage_le : s.minimumWage.toRat ≤ r.baseSalary.toRat
  regularHours_nonneg : 0 ≤ r.regularHours.toRat
  regularHours_le : r.regularHours.toRat ≤ 24 * r.period.days
  regularHours_pos : Validation.hasOvertime r = true →
    0 < r.regularHours.toRat
  worked : r.Worked s
  allowances : ∀ e ∈ r.allowances.entries, OrderlyAmount e
  deductions : ∀ e ∈ r.deductions.entries, OrderlyAmount e
  period_le : r.period ≤ Period.containing asOf
  delay_le : r.attendance.delayMinutes ≤ maxDailyDelay
  absenceDays_nonneg : 0 ≤ r.attendance.absenceDays.toRat
  absenceDays_le : r.attendance.absenceDays.toRat ≤ r.period.days

/-- Findings of which none forbids the calculation. -/
def Harmless (found : List Finding) : Prop :=
  ∀ f ∈ found, f.blocks = false

instance (found : List Finding) : Decidable (Harmless found) :=
  inferInstanceAs (Decidable (∀ f ∈ found, f.blocks = false))

theorem harmless_nil : Harmless [] := List.forall_mem_nil _

theorem Harmless.append {found more : List Finding}
    (h : Harmless found) (h' : Harmless more) :
    Harmless (found ++ more) := by
  intro f hf
  rcases List.mem_append.1 hf with hf | hf
  · exact h f hf
  · exact h' f hf

theorem harmless_flatMap {α : Type} {l : List α} {check : α → List Finding}
    (h : ∀ a ∈ l, Harmless (check a)) : Harmless (l.flatMap check) := by
  intro f hf
  obtain ⟨a, ha, hmem⟩ := List.mem_flatMap.1 hf
  exact h a ha f hmem

theorem harmless_singleton {f : Finding} (h : f.blocks = false) :
    Harmless [f] := by
  intro f' hf'
  rwa [List.mem_singleton.1 hf']

-- ============================================================= the checks

/-- Hours above a cap are announced and not forbidden. -/
theorem harmless_aboveCap (rule : OvertimeRule) (e : Category × Decimal) :
    Harmless (match rule.cap with
      | some cap => if cap < e.2 then [.overtimeAboveCap e.1 e.2 cap] else []
      | none => []) := by
  split
  · split
    · exact harmless_singleton rfl
    · exact harmless_nil
  · exact harmless_nil

namespace Request.Orderly

open Validation

variable (h : r.Orderly s asOf)
include h

theorem checkEmployeeId_eq : checkEmployeeId r = [] := by
  unfold checkEmployeeId
  rw [h.named]
  rfl

theorem checkSalary_eq : checkSalary r s = [] := by
  have hpos : ¬r.baseSalary ≤ .zero := by
    rw [le_iff_toRat, toRat_zero, not_le]
    exact h.salary_pos
  have hwage : ¬r.baseSalary < s.minimumWage := by
    rw [lt_iff_toRat, not_lt]
    exact h.minimumWage_le
  unfold checkSalary
  rw [if_neg hpos, if_neg hwage]

theorem checkRegularHours_eq : checkRegularHours r = [] := by
  have hneg : ¬r.regularHours < .zero := by
    rw [lt_iff_toRat, toRat_zero, not_lt]
    exact h.regularHours_nonneg
  have hlong : ¬r.period.hourCount < r.regularHours := by
    rw [lt_iff_toRat, Period.hourCount, toRat_ofNat, not_lt]
    exact_mod_cast h.regularHours_le
  unfold checkRegularHours
  rw [if_neg hneg, if_neg hlong]

theorem harmless_checkCategory {e : Category × Decimal}
    (he : e ∈ r.overtimeHours.entries) :
    Harmless (checkCategory s e) := by
  have hneg : ¬e.2 < .zero := by
    rw [lt_iff_toRat, toRat_zero, not_lt]
    exact h.worked.nonneg e he
  obtain ⟨rule, hrule⟩ := h.worked.rule e he
  unfold checkCategory
  rw [if_neg hneg, Snapshot.overtimeRule?, hrule]
  split
  · exact harmless_nil
  · exact harmless_aboveCap rule e

theorem harmless_checkOvertime : Harmless (checkOvertime r s) := by
  unfold checkOvertime
  refine (harmless_flatMap fun e he => h.harmless_checkCategory he).append ?_
  rw [if_neg]
  · exact harmless_nil
  · rintro ⟨hovertime, hle⟩
    rw [le_iff_toRat, toRat_zero] at hle
    exact absurd (h.regularHours_pos hovertime) (not_lt.2 hle)

omit h in
theorem checkAmount_eq (group : AmountGroup) {e : String × Decimal}
    (he : OrderlyAmount e) : checkAmount group e = [] := by
  have hneg : ¬e.2 < .zero := by
    rw [lt_iff_toRat, toRat_zero, not_lt]
    exact he.2
  unfold checkAmount
  rw [he.1, if_neg hneg]
  rfl

theorem harmless_checkAmounts : Harmless (checkAmounts r) := by
  unfold checkAmounts
  refine (harmless_flatMap fun e he => ?_).append
    (harmless_flatMap fun e he => ?_)
  · rw [checkAmount_eq _ (h.allowances e he)]
    exact harmless_nil
  · rw [checkAmount_eq _ (h.deductions e he)]
    exact harmless_nil

theorem checkPeriod_eq : checkPeriod r asOf = [] := by
  have hle := h.period_le
  unfold checkPeriod
  rw [if_neg]
  rintro (hlt | ⟨heq, hlt⟩) <;> rcases hle with hle | ⟨heq', hle⟩ <;>
    omega

theorem harmless_checkDelay : Harmless (checkDelay r) := by
  unfold checkDelay
  simp only
  rw [if_neg (UInt32.not_lt.2 h.delay_le)]
  split
  · exact harmless_singleton rfl
  · exact harmless_nil

theorem harmless_checkAbsence : Harmless (checkAbsence r) := by
  have hneg : ¬r.attendance.absenceDays < .zero := by
    rw [lt_iff_toRat, toRat_zero, not_lt]
    exact h.absenceDays_nonneg
  have hlong : ¬r.period.dayCount < r.attendance.absenceDays := by
    rw [lt_iff_toRat, Period.dayCount, toRat_ofNat, not_lt]
    exact h.absenceDays_le
  unfold checkAbsence
  simp only
  rw [if_neg hneg, if_neg hlong]
  split
  · exact harmless_singleton rfl
  · exact harmless_nil

/-- All checks together, where the deductions asked for stay within
salary and allowances. -/
theorem exists_examine (e : Estimate r s)
    (hle : e.explicit.toRat ≤ e.fixedPay.toRat) :
    ∃ found, examine r s asOf = .ok found ∧ Harmless found := by
  have hasked : checkDeductions r = .ok [] := by
    have hlt : ¬e.fixedPay < e.explicit := by
      rw [lt_iff_toRat, not_lt]
      exact hle
    unfold checkDeductions
    simp only [e.allowances_ok, e.fixedPay_ok, e.explicit_ok, ok_bind,
      if_neg hlt]
    rfl
  unfold examine
  rw [hasked, ok_bind, h.checkEmployeeId_eq, h.checkSalary_eq,
    h.checkRegularHours_eq, h.checkPeriod_eq]
  refine ⟨_, rfl, ?_⟩
  simp only [List.nil_append, List.append_nil]
  exact ((h.harmless_checkOvertime.append h.harmless_checkAmounts).append
    h.harmless_checkDelay).append h.harmless_checkAbsence

end Request.Orderly

-- ============================================================= the bounds

namespace Estimate

/-- The amounts of an estimate are what the bounds are made of. -/
theorem estimate_eq (e : Estimate r s) :
    NetBounds.estimate r s = .ok (some e.bounds) := by
  unfold NetBounds.estimate NetBounds.compute
  simp only [run_bind_eq_some, run_liftM_eq_some, run_attempt_eq_some,
    run_pure_eq_some]
  exact ⟨_, e.allowances_ok, _, orFault_eq_ok.1 e.fixedPay_ok, _,
    e.hourlyRate_ok, _, e.overtime_ok, _, e.overtimeFloor_ok, _,
    e.overtimeCeiling_ok, _, e.grossFloor_ok, _, e.grossCeiling_ok, _,
    e.least_ok, _, e.most_ok, _, e.employeeFloor_ok, _,
    e.employeeCeiling_ok, _, e.taxable_ok, _, e.assessed_ok, _,
    e.dailyRate_ok, _, e.adjustment_ok, _, e.withholdings_ok, _,
    e.explicit_ok, _, e.penalized_ok, _, e.deductions_ok, rfl⟩

end Estimate

/-- Bounds that are covered report nothing. -/
theorem checkBounds_eq {b : NetBounds} (h : Covered b) :
    Validation.checkBounds b = .ok [] := by
  obtain ⟨t, ht, hle⟩ := h.total
  have hdeductions : ¬b.gross < b.deductions := by
    rw [lt_iff_toRat, not_lt]
    exact h.deductions_le
  have htotal : ¬b.gross < t := by
    rw [lt_iff_toRat, not_lt]
    exact hle
  unfold Validation.checkBounds
  rw [if_neg hdeductions, ht, ok_bind, if_neg htotal]
  rfl

/-- A request that is in order and whose bounds are covered is
accepted. -/
theorem exists_valid_report (h : r.Orderly s asOf) (e : Estimate r s)
    (hle : e.explicit.toRat ≤ e.fixedPay.toRat)
    (hcovered : Covered e.bounds) :
    ∃ report, validate r s asOf = .ok report ∧ report.valid = true := by
  obtain ⟨found, hfound, hfree⟩ := h.exists_examine e hle
  have hnone : found.any (·.blocks) = false := by
    rw [List.any_eq_false]
    exact fun f hf => Bool.eq_false_iff.1 (hfree f hf)
  refine ⟨.ofFindings found, ?_, ?_⟩
  · unfold validate
    rw [hfound, liftM_fault_crash_ok, ok_bind, hnone]
    simp only [Bool.false_eq_true, if_false]
    rw [e.estimate_eq, ok_bind]
    simp only [checkBounds_eq hcovered, liftM_fault_crash_ok, ok_bind,
      List.append_nil]
    rfl
  · rw [Report.valid_ofFindings, hnone]
    rfl

end Payroll
