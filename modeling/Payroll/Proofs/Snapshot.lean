/-
What the check of a snapshot vouches for, in one place. The chain of
checks is opened once: it passes where every quantity is in its bounds
and both tables are in order (`check_eq_ok`). Most arguments need less
of it, that nothing of the rules is negative; this is
`Snapshot.Proper`.
-/
import Payroll.Proofs.Attendance
import Payroll.Proofs.Contribution
import Payroll.Proofs.Overtime
import Payroll.Rules.Snapshot

namespace Payroll

open Decimal

/-- A snapshot that passed its check, as far as amounts are
concerned. -/
structure Snapshot.Proper (s : Snapshot) : Prop where
  attendance : s.attendance.Proper
  contributions : ∀ r ∈ s.contributions, r.Proper
  schemes : (s.contributions.map (·.scheme)).Nodup
  overtime : ∀ r ∈ s.overtime, r.Proper

/-- A snapshot with every quantity in its bounds and both tables in
order. -/
structure Snapshot.WellFormed (s : Snapshot) : Prop where
  monthlyHours_pos : 0 < s.monthlyHours.toRat
  workingDays_pos : 0 < s.workingDays.toRat
  dailyHours_pos : 0 < s.dailyHours.toRat
  dailyHours_le : s.dailyHours.toRat ≤ 24
  minimumWage_nonneg : 0 ≤ s.minimumWage.toRat
  minorPenalty_nonneg : 0 ≤ s.attendance.minorPenalty.toRat
  one_le_severeEscalation : 1 ≤ s.attendance.severeEscalation.toRat
  contributions : ContributionRate.Table s.contributions
  overtime : OvertimeRule.Table s.overtime

namespace Snapshot

variable {s : Snapshot}

theorem WellFormed.proper (h : s.WellFormed) : s.Proper where
  attendance := ⟨h.minorPenalty_nonneg,
    zero_le_one.trans h.one_le_severeEscalation⟩
  contributions := h.contributions.proper
  schemes := h.contributions.distinct
  overtime := h.overtime.proper

theorem checkPositive_eq_ok {divisor : Divisor} {value : Decimal} :
    checkPositive divisor value = .ok () ↔ 0 < value.toRat := by
  rw [checkPositive, ite_error_eq_ok, le_iff_toRat, toRat_zero, not_le]
  exact and_iff_left rfl

theorem checkLimits_eq_ok : s.checkLimits = .ok () ↔
    s.dailyHours.toRat ≤ 24 ∧ 0 ≤ s.minimumWage.toRat
      ∧ 0 ≤ s.attendance.minorPenalty.toRat
      ∧ 1 ≤ s.attendance.severeEscalation.toRat := by
  unfold checkLimits
  simp only [ite_error_eq_ok, not_or, lt_iff_toRat, not_lt, toRat_zero,
    toRat_one, toRat_ofNat, Nat.cast_ofNat, and_true]

/-- Every check of a snapshot passes where all of them do. -/
theorem check_eq_ok : s.check = .ok () ↔ s.WellFormed := by
  unfold check
  simp only [check_bind_eq_ok, checkPositive_eq_ok, checkLimits_eq_ok,
    ContributionRate.checkAll_eq_ok, OvertimeRule.checkAll_eq_ok]
  constructor
  · rintro ⟨h₁, h₂, h₃, ⟨h₄, h₅, h₆, h₇⟩, hcontributions, hovertime⟩
    exact ⟨h₁, h₂, h₃, h₄, h₅, h₆, h₇, hcontributions, hovertime⟩
  · rintro ⟨h₁, h₂, h₃, h₄, h₅, h₆, h₇, hcontributions, hovertime⟩
    exact ⟨h₁, h₂, h₃, ⟨h₄, h₅, h₆, h₇⟩, hcontributions, hovertime⟩

theorem proper_of_check (h : s.check = .ok ()) : s.Proper :=
  (check_eq_ok.1 h).proper

/-- The exact rates of the employee leave something of the salary. -/
theorem sum_employeeRate_lt (h : s.check = .ok ()) :
    (s.contributions.map (·.employeeRate.toRat)).sum < 1 :=
  (check_eq_ok.1 h).contributions.sum_lt

end Snapshot

end Payroll
