/-
What attendance costs: nothing below zero. A penalty is a flat amount or
a share of a day's pay, and no more than a day's pay; a deduction is a
day's pay for each day. Under a policy whose amounts are not negative
neither can be a gain.
-/
import Payroll.Attendance.Adjustment
import Payroll.Proofs.Decimal.Ledger
import Payroll.Proofs.Sequencing

namespace Payroll

open Decimal

/-- A policy that passed its check. -/
structure AttendancePolicy.Proper (p : AttendancePolicy) : Prop where
  minor_nonneg : 0 ≤ p.minorPenalty.toRat
  escalation_nonneg : 0 ≤ p.severeEscalation.toRat

namespace Adjustment

variable {policy : AttendancePolicy} {dailyRate dayHours : Decimal}

theorem toRat_sixty : (Decimal.ofNat 60).toRat = 60 := by
  rw [toRat_ofNat]
  norm_num

/-- The minutes of a day are no fewer than its hours. -/
theorem hours_le_minutes {dayMinutes : Decimal}
    (hday : 0 ≤ dayHours.toRat)
    (h : dayHours.mul (.ofNat 60) = .ok dayMinutes) :
    dayHours.toRat ≤ dayMinutes.toRat := by
  rw [toRat_mul h, toRat_sixty]
  calc dayHours.toRat = nearest dayHours.toRat := (nearest_toRat _).symm
    _ ≤ nearest (dayHours.toRat * 60) := nearest_mono (by linarith)

theorem proportional_nonneg {minutes : UInt32} {share : Decimal}
    (hrate : 0 ≤ dailyRate.toRat) (hday : 0 ≤ dayHours.toRat)
    (h : proportional minutes dailyRate dayHours = .ok share) :
    0 ≤ share.toRat := by
  obtain ⟨dayMinutes, hminutes, h⟩ := bind_eq_ok.1 h
  obtain ⟨scaled, hscaled, h⟩ := bind_eq_ok.1 h
  have hminutes' : 0 ≤ dayMinutes.toRat :=
    hday.trans (hours_le_minutes hday hminutes)
  have hscaled' : 0 ≤ scaled.toRat :=
    toRat_mul_nonneg hrate (toRat_nonneg_ofUInt32 minutes) hscaled
  exact toRat_div_nonneg hscaled' hminutes' h

theorem penalty_nonneg {tier : DelayTier} {share p : Decimal}
    (hpolicy : policy.Proper) (hrate : 0 ≤ dailyRate.toRat)
    (hshare : 0 ≤ share.toRat)
    (h : penalty policy tier dailyRate share = .ok p) : 0 ≤ p.toRat := by
  cases tier with
  | onTime =>
      cases h
      rw [toRat_zero]
  | minor =>
      cases h
      rw [toRat_min]
      exact le_min hpolicy.minor_nonneg hrate
  | moderate =>
      cases h
      rw [toRat_min]
      exact le_min hshare hrate
  | severe =>
      obtain ⟨escalated, hescalated, h⟩ := bind_eq_ok.1 h
      cases h
      rw [toRat_min]
      exact le_min
        (toRat_mul_nonneg hshare hpolicy.escalation_nonneg hescalated)
        hrate

/-- No delay costs more than a day's pay. -/
theorem penalty_le {tier : DelayTier} {share p : Decimal}
    (hrate : 0 ≤ dailyRate.toRat)
    (h : penalty policy tier dailyRate share = .ok p) :
    p.toRat ≤ dailyRate.toRat := by
  cases tier with
  | onTime =>
      cases h
      rwa [toRat_zero]
  | minor | moderate =>
      cases h
      rw [toRat_min]
      exact min_le_right _ _
  | severe =>
      obtain ⟨escalated, -, h⟩ := bind_eq_ok.1 h
      cases h
      rw [toRat_min]
      exact min_le_right _ _

theorem deduction_nonneg {a : Attendance} {d : Decimal}
    (hdays : 0 ≤ a.absenceDays.toRat) (hrate : 0 ≤ dailyRate.toRat)
    (h : deduction a dailyRate = .ok d) : 0 ≤ d.toRat := by
  unfold deduction at h
  split at h
  · cases h
    rw [toRat_zero]
  · exact toRat_mul_nonneg hdays hrate h

/-- Where nothing is negative and a day has hours, no check objects. -/
theorem compute_unchecked {a : Attendance} (hrate : 0 ≤ dailyRate.toRat)
    (hdays : 0 ≤ a.absenceDays.toRat) (hday : 0 < dayHours.toRat) :
    compute a dailyRate policy dayHours = (do
      let share ← proportional a.delayMinutes dailyRate dayHours
      let delayPenalty ← penalty policy a.delayTier dailyRate share
      let absenceDeduction ← deduction a dailyRate
      return {
        tier := a.delayTier
        delayMinutes := a.delayMinutes
        dailyRate
        delayPenalty
        absenceDays := a.absenceDays
        paidAbsence := a.paidAbsence
        absenceDeduction
        requiresApproval := a.delayTier == .severe
        warnings := delayWarnings a.delayMinutes a.delayTier
          ++ absenceWarnings a }) := by
  have hnorate : ¬dailyRate < .zero := by
    rw [lt_iff_toRat, toRat_zero, not_lt]
    exact hrate
  have hnodays : ¬a.absenceDays < .zero := by
    rw [lt_iff_toRat, toRat_zero, not_lt]
    exact hdays
  have hnoday : ¬dayHours ≤ .zero := by
    rw [le_iff_toRat, toRat_zero, not_le]
    exact hday
  unfold compute
  rw [if_neg hnorate, if_neg hnodays, if_neg hnoday]

/-- What an adjustment is made of. -/
structure Computed (a : Attendance) (dailyRate : Decimal)
    (policy : AttendancePolicy) (dayHours : Decimal) (x : Adjustment) :
    Prop where
  rate_nonneg : 0 ≤ dailyRate.toRat
  days_nonneg : 0 ≤ a.absenceDays.toRat
  day_pos : 0 < dayHours.toRat
  penalty_ok : ∃ share, proportional a.delayMinutes dailyRate dayHours
      = .ok share
    ∧ penalty policy a.delayTier dailyRate share = .ok x.delayPenalty
  deduction_ok : deduction a dailyRate = .ok x.absenceDeduction
  tier : x.tier = a.delayTier
  dailyRate : x.dailyRate = dailyRate
  absenceDays : x.absenceDays = a.absenceDays
  paidAbsence : x.paidAbsence = a.paidAbsence

theorem computed {a : Attendance} {x : Adjustment}
    (h : compute a dailyRate policy dayHours = .ok x) :
    Computed a dailyRate policy dayHours x := by
  unfold compute at h
  rw [ite_error_eq_ok, ite_error_eq_ok, ite_error_eq_ok, lt_iff_toRat,
    lt_iff_toRat, le_iff_toRat, toRat_zero, not_lt, not_lt, not_le] at h
  obtain ⟨hrate, hdays, hday, h⟩ := h
  obtain ⟨share, hshare, h⟩ := bind_eq_ok.1 h
  obtain ⟨p, hp, h⟩ := bind_eq_ok.1 h
  obtain ⟨d, hd, h⟩ := bind_eq_ok.1 h
  rw [liftM_fault_eq_ok] at hshare hp hd
  cases h
  exact ⟨hrate, hdays, hday, ⟨share, hshare, hp⟩, hd, rfl, rfl, rfl,
    rfl⟩

/-- Neither of the amounts is negative. -/
theorem compute_nonneg {a : Attendance} {adjustment : Adjustment}
    (hpolicy : policy.Proper)
    (h : compute a dailyRate policy dayHours = .ok adjustment) :
    0 ≤ adjustment.delayPenalty.toRat
      ∧ 0 ≤ adjustment.absenceDeduction.toRat := by
  have hx := computed h
  obtain ⟨share, hshare, hp⟩ := hx.penalty_ok
  have hshare' := proportional_nonneg hx.rate_nonneg hx.day_pos.le hshare
  exact ⟨penalty_nonneg hpolicy hx.rate_nonneg hshare' hp,
    deduction_nonneg hx.days_nonneg hx.rate_nonneg hx.deduction_ok⟩

-- ============================================================= no amounts

theorem mul_of_isZero {a b : Decimal} (ha : a.isZero = true) :
    a.mul b = .ok .zero := by
  unfold mul mul?
  rw [ha]
  rfl

/-- Nothing is deducted for paid leave nor for no absence at all. -/
theorem deduction_free {a : Attendance}
    (h : a.paidAbsence = true ∨ a.absenceDays.toRat = 0) :
    deduction a dailyRate = .ok .zero := by
  unfold deduction
  by_cases hpaid : a.paidAbsence = true
  · rw [if_pos hpaid]
  · rw [if_neg hpaid]
    exact mul_of_isZero (isZero_iff.2 (h.resolve_left hpaid))

/-- Where there was no delay or no absence, nothing is charged for
it. -/
theorem compute_free {a : Attendance} {adjustment : Adjustment}
    (h : compute a dailyRate policy dayHours = .ok adjustment) :
    (adjustment.tier = .onTime → adjustment.delayPenalty = .zero)
      ∧ (¬.zero < adjustment.absenceDays →
        adjustment.absenceDeduction = .zero) := by
  have hx := computed h
  constructor
  · intro htier
    obtain ⟨share, -, hp⟩ := hx.penalty_ok
    rw [← hx.tier, htier] at hp
    injection hp with hzero
    exact hzero.symm
  · intro hnone
    rw [hx.absenceDays, lt_iff_toRat, toRat_zero, not_lt] at hnone
    have hfree : deduction a dailyRate = .ok .zero :=
      deduction_free (.inr (le_antisymm hnone hx.days_nonneg))
    rw [hx.deduction_ok] at hfree
    injection hfree

end Adjustment

end Payroll
