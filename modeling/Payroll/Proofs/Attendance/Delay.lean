/-
Coming later never costs less. Tiers price a delay differently, but
where a minor one is free they all follow one formula: the share of the
day that was missed, times a factor of the tier, and no more than a
day's pay (`toRat_penalty`). The factor is zero, one and the escalation
of the policy, so it rises with the delay if the escalation is not less
than one; the share rises with the minutes. Each step rounds, and
rounding keeps the order, so the penalty rises too (`penalty_mono`).

A minor delay that is not free stands apart: its flat amount may exceed
what half an hour costs. That comparison is left out, no other.

Arithmetic may be asked for more than an amount can hold. That is the
only way in which a penalty on proper terms can fail to be found: the
minutes of a day that has hours are never zero (`ends_compute_overflow`).
-/
import Payroll.Proofs.Attendance
import Payroll.Proofs.Endings

namespace Payroll

open Decimal

/-- A policy that charges nothing below zero, and for a severe delay no
less than for a moderate one. -/
structure AttendancePolicy.Rising (p : AttendancePolicy) : Prop where
  minor_nonneg : .zero ≤ p.minorPenalty
  one_le_escalation : .one ≤ p.severeEscalation

theorem AttendancePolicy.Rising.proper {p : AttendancePolicy}
    (h : p.Rising) : p.Proper := by
  have hminor := le_iff_toRat.1 h.minor_nonneg
  have hone := le_iff_toRat.1 h.one_le_escalation
  rw [toRat_zero] at hminor
  rw [toRat_one] at hone
  exact ⟨hminor, by linarith⟩

-- =============================================================== overflow

/-- A crash because an amount is out of range. -/
def Failure.IsOverflow (e : Failure) : Prop :=
  ∃ f, e = .crash (.fault f) ∧ f ≠ .divisionByZero

variable {α : Type}

/-- A computation that is not stopped by an overflow. -/
def NoOverflow (x : Except Failure α) : Prop :=
  ∀ e, x = .error e → ¬e.IsOverflow

theorem NoOverflow.of_ok {x : Except Failure α} {a : α} (h : x = .ok a) :
    NoOverflow x := by
  intro e he
  rw [h] at he
  cases he

theorem NoOverflow.exists_ok {Q : α → Prop} {x : Except Failure α}
    (hrange : NoOverflow x) (h : Ends Failure.IsOverflow Q x) :
    ∃ a, x = .ok a := by
  cases x with
  | ok a => exact ⟨a, rfl⟩
  | error e => exact absurd h (hrange e rfl)

theorem Ends.overflow {Q : α → Prop} {x : Except Fault α}
    (h : Ends (· ≠ .divisionByZero) Q x) :
    Ends Failure.IsOverflow Q (liftM x : Except Failure α) := by
  cases x with
  | ok a => exact h
  | error f => exact ⟨f, rfl, h⟩

theorem ends_orFault {f : Fault} (hf : f ≠ .divisionByZero)
    (o : Option Decimal) :
    Ends (· ≠ .divisionByZero) (fun c => orFault f o = .ok c)
      (orFault f o) := by
  cases o with
  | none => exact hf
  | some c => rfl

namespace Adjustment

variable {policy : AttendancePolicy} {dailyRate dayHours : Decimal}
  {minutes minutes' : UInt32}

-- ================================================================ endings

theorem ends_proportional_overflow (hday : 0 < dayHours.toRat) :
    Ends (· ≠ .divisionByZero) (fun _ => True)
      (proportional minutes dailyRate dayHours) := by
  unfold proportional
  refine (ends_orFault (by decide) _).bind fun dayMinutes hminutes => ?_
  refine (ends_orFault (by decide) _).bind fun scaled _ => ?_
  have hpos := hday.trans_le (hours_le_minutes hday.le hminutes)
  rw [div_eq_orFault scaled hpos.ne']
  exact (ends_orFault (by decide) _).imp fun _ _ _ => trivial

theorem ends_penalty_overflow (tier : DelayTier) (share : Decimal) :
    Ends (· ≠ .divisionByZero) (fun _ => True)
      (penalty policy tier dailyRate share) := by
  cases tier with
  | onTime | minor | moderate => trivial
  | severe =>
      exact (ends_orFault (by decide) _).bind fun _ _ => trivial

theorem ends_deduction_overflow (a : Attendance) :
    Ends (· ≠ .divisionByZero) (fun _ => True)
      (deduction a dailyRate) := by
  unfold deduction
  split
  · trivial
  · exact (ends_orFault (by decide) _).imp fun _ _ _ => trivial

/-- On proper terms attendance is priced, or an amount overflows. -/
theorem ends_compute_overflow {a : Attendance}
    (hrate : .zero ≤ dailyRate) (hdays : .zero ≤ a.absenceDays)
    (hday : .zero < dayHours) :
    Ends Failure.IsOverflow (fun _ => True)
      (compute a dailyRate policy dayHours) := by
  rw [lt_iff_toRat, toRat_zero] at hday
  rw [le_iff_toRat, toRat_zero] at hrate hdays
  rw [compute_unchecked hrate hdays hday]
  refine (ends_proportional_overflow hday).overflow.bind fun share _ => ?_
  refine (ends_penalty_overflow _ share).overflow.bind fun _ _ => ?_
  exact (ends_deduction_overflow a).overflow.bind fun _ _ => trivial

-- ================================================================== order

/-- More minutes are a larger share of the day. -/
theorem proportional_mono {share share' : Decimal}
    (hrate : 0 ≤ dailyRate.toRat) (hday : 0 ≤ dayHours.toRat)
    (hle : minutes ≤ minutes')
    (h : proportional minutes dailyRate dayHours = .ok share)
    (h' : proportional minutes' dailyRate dayHours = .ok share') :
    share.toRat ≤ share'.toRat := by
  obtain ⟨dayMinutes, hminutes, h⟩ := bind_eq_ok.1 h
  obtain ⟨scaled, hscaled, h⟩ := bind_eq_ok.1 h
  obtain ⟨dayMinutes', hminutes', h'⟩ := bind_eq_ok.1 h'
  obtain ⟨scaled', hscaled', h'⟩ := bind_eq_ok.1 h'
  cases hminutes.symm.trans hminutes'
  have hnonneg := hday.trans (hours_le_minutes hday hminutes)
  have hcount : (minutes.toNat : ℚ) ≤ minutes'.toNat := by
    exact_mod_cast UInt32.le_iff_toNat_le.1 hle
  have hle' : scaled.toRat ≤ scaled'.toRat := by
    rw [toRat_mul hscaled, toRat_mul hscaled', toRat_ofUInt32,
      toRat_ofUInt32]
    exact nearest_mono (mul_le_mul_of_nonneg_left hcount hrate)
  rw [toRat_div (ne_zero_of_div h) h, toRat_div (ne_zero_of_div h') h']
  exact nearest_mono (div_le_div_of_nonneg_right hle' hnonneg)

/-- What a tier multiplies the share by, if a minor delay is free. -/
def factor (policy : AttendancePolicy) : DelayTier → ℚ
  | .onTime | .minor => 0
  | .moderate => 1
  | .severe => policy.severeEscalation.toRat

theorem factor_nonneg (hpolicy : policy.Rising) (tier : DelayTier) :
    0 ≤ factor policy tier := by
  cases tier with
  | onTime | minor => exact le_rfl
  | moderate => exact zero_le_one
  | severe => exact hpolicy.proper.escalation_nonneg

/-- A longer delay has no smaller factor. -/
theorem factor_mono (hpolicy : policy.Rising) (hle : minutes ≤ minutes') :
    factor policy (.ofMinutes minutes)
      ≤ factor policy (.ofMinutes minutes') := by
  have hone := le_iff_toRat.1 hpolicy.one_le_escalation
  rw [toRat_one] at hone
  unfold DelayTier.ofMinutes
  by_cases hnone : minutes = 0
  · rw [if_pos hnone]
    exact factor_nonneg hpolicy _
  · rw [if_neg hnone]
    by_cases hminor : minutes ≤ DelayTier.minorMax
    · rw [if_pos hminor]
      exact factor_nonneg hpolicy _
    · -- past the minor tier the other delay is past it too
      have hnone' : minutes' ≠ 0 := by
        rintro rfl
        exact hnone (UInt32.le_zero_iff.1 hle)
      have hminor' : ¬minutes' ≤ DelayTier.minorMax :=
        fun h => hminor (UInt32.le_trans hle h)
      rw [if_neg hminor, if_neg hnone', if_neg hminor']
      by_cases hmoderate : minutes' ≤ DelayTier.moderateMax
      · rw [if_pos hmoderate, if_pos (UInt32.le_trans hle hmoderate)]
      · rw [if_neg hmoderate]
        by_cases hmoderate' : minutes ≤ DelayTier.moderateMax
        · rw [if_pos hmoderate']
          exact hone
        · rw [if_neg hmoderate']

/-- One formula for all tiers. -/
theorem toRat_penalty {tier : DelayTier} {share p : Decimal}
    (hrate : 0 ≤ dailyRate.toRat)
    (hfree : tier = .minor → policy.minorPenalty.toRat = 0)
    (h : penalty policy tier dailyRate share = .ok p) :
    p.toRat = min (nearest (share.toRat * factor policy tier))
      dailyRate.toRat := by
  cases tier with
  | onTime =>
      cases h
      show Decimal.zero.toRat = _
      rw [factor, mul_zero, nearest_zero, min_eq_left hrate, toRat_zero]
  | minor =>
      cases h
      rw [factor, mul_zero, nearest_zero, toRat_min, hfree rfl]
  | moderate =>
      cases h
      rw [factor, mul_one, nearest_toRat, toRat_min]
  | severe =>
      obtain ⟨escalated, hescalated, h⟩ := bind_eq_ok.1 h
      cases h
      rw [factor, toRat_min, toRat_mul hescalated]

-- ============================================================ two delays

variable {a a' : Attendance} {x x' : Adjustment}

theorem tier_ne_minor (h : 16 ≤ a.delayMinutes) : a.delayTier ≠ .minor := by
  have hlarge := UInt32.le_iff_toNat_le.1 h
  have hnone : a.delayMinutes ≠ 0 := by
    intro hzero
    rw [hzero] at hlarge
    exact absurd hlarge (by decide)
  have hminor : ¬a.delayMinutes ≤ DelayTier.minorMax := by
    intro hle
    exact absurd (hlarge.trans (UInt32.le_iff_toNat_le.1 hle)) (by decide)
  unfold Attendance.delayTier DelayTier.ofMinutes
  rw [if_neg hnone, if_neg hminor]
  split <;> exact nofun

/-- Of two delays past the minor tier, or under a policy to which that
tier is free, the longer one costs no less. -/
theorem penalty_mono (hpolicy : policy.Rising)
    (hle : a.delayMinutes ≤ a'.delayMinutes)
    (hfree : 16 ≤ a.delayMinutes ∨ policy.minorPenalty ≈ .zero)
    (hx : Computed a dailyRate policy dayHours x)
    (hx' : Computed a' dailyRate policy dayHours x') :
    x.delayPenalty.toRat ≤ x'.delayPenalty.toRat := by
  obtain ⟨share, hshare, hp⟩ := hx.penalty_ok
  obtain ⟨share', hshare', hp'⟩ := hx'.penalty_ok
  have hminor (b : Attendance) (hb : a.delayMinutes ≤ b.delayMinutes) :
      b.delayTier = .minor → policy.minorPenalty.toRat = 0 := by
    intro htier
    rcases hfree with hlarge | hzero
    · exact absurd htier (tier_ne_minor (UInt32.le_trans hlarge hb))
    · rw [equiv_iff_toRat.1 hzero, toRat_zero]
  rw [toRat_penalty hx.rate_nonneg (hminor a UInt32.le_rfl) hp,
    toRat_penalty hx.rate_nonneg (hminor a' hle) hp']
  have hnonneg := proportional_nonneg hx.rate_nonneg hx.day_pos.le hshare
  have hshares := proportional_mono hx.rate_nonneg hx.day_pos.le hle
    hshare hshare'
  have hfactors := factor_mono hpolicy hle
  refine min_le_min_right _ (nearest_mono ?_)
  exact mul_le_mul hshares hfactors (factor_nonneg hpolicy _)
    (hnonneg.trans hshares)

/-- The penalty does not look at the absence. -/
theorem penalty_congr (heq : a.delayMinutes = a'.delayMinutes)
    (hx : Computed a dailyRate policy dayHours x)
    (hx' : Computed a' dailyRate policy dayHours x') :
    x.delayPenalty = x'.delayPenalty := by
  obtain ⟨share, hshare, hp⟩ := hx.penalty_ok
  obtain ⟨share', hshare', hp'⟩ := hx'.penalty_ok
  unfold Attendance.delayTier at hp hp'
  rw [← heq] at hshare' hp'
  cases hshare.symm.trans hshare'
  rw [hp] at hp'
  injection hp'

/-- The deduction does not look at the delay. -/
theorem deduction_congr (hdays : a.absenceDays = a'.absenceDays)
    (hpaid : a.paidAbsence = a'.paidAbsence)
    (hx : Computed a dailyRate policy dayHours x)
    (hx' : Computed a' dailyRate policy dayHours x') :
    x.absenceDeduction = x'.absenceDeduction := by
  have hd := hx.deduction_ok
  have hd' := hx'.deduction_ok
  unfold deduction at hd hd'
  rw [← hdays, ← hpaid, hd] at hd'
  injection hd'

/-- A delay costs nothing below zero and no more than a day. Past the
minor tier, and everywhere if that tier is free, a longer delay costs no
less, rounded or not. What it costs is not a matter of the absence, nor
what the absence costs one of the delay. -/
theorem delay_penalty_rises (hrate : .zero ≤ dailyRate)
    (hday : .zero < dayHours) (hpolicy : policy.Rising)
    (hdays : .zero ≤ a.absenceDays) (hdays' : .zero ≤ a'.absenceDays)
    (hrange : NoOverflow (compute a dailyRate policy dayHours))
    (hrange' : NoOverflow (compute a' dailyRate policy dayHours)) :
    ∃ x x', compute a dailyRate policy dayHours = .ok x
      ∧ compute a' dailyRate policy dayHours = .ok x'
      ∧ .zero ≤ x.delayPenalty ∧ x.delayPenalty ≤ dailyRate
      ∧ (∀ r : Rounding, .zero ≤ (x.rounded r).delayPenalty
        ∧ (x.rounded r).delayPenalty ≤ r.round dailyRate)
      ∧ (a.delayMinutes ≤ a'.delayMinutes →
        16 ≤ a.delayMinutes ∨ policy.minorPenalty ≈ .zero →
        x.delayPenalty ≤ x'.delayPenalty
          ∧ ∀ r : Rounding, (x.rounded r).delayPenalty
            ≤ (x'.rounded r).delayPenalty)
      ∧ (a.delayMinutes = a'.delayMinutes →
        x.delayPenalty = x'.delayPenalty)
      ∧ (a.absenceDays = a'.absenceDays →
        a.paidAbsence = a'.paidAbsence →
        x.absenceDeduction = x'.absenceDeduction) := by
  obtain ⟨x, hok⟩ :=
    hrange.exists_ok (ends_compute_overflow hrate hdays hday)
  obtain ⟨x', hok'⟩ :=
    hrange'.exists_ok (ends_compute_overflow hrate hdays' hday)
  have hx := computed hok
  have hx' := computed hok'
  have hnonneg := (compute_nonneg hpolicy.proper hok).1
  have hle : x.delayPenalty.toRat ≤ dailyRate.toRat := by
    obtain ⟨share, -, hp⟩ := hx.penalty_ok
    exact penalty_le hx.rate_nonneg hp
  refine ⟨x, x', hok, hok', ?_, ?_, ?_, ?_, fun h => penalty_congr h hx hx',
    fun h h' => deduction_congr h h' hx hx'⟩
  · rw [le_iff_toRat, toRat_zero]
    exact hnonneg
  · rw [le_iff_toRat]
    exact hle
  · intro r
    unfold rounded
    rw [le_iff_toRat, le_iff_toRat, toRat_zero, r.toRat_round,
      r.toRat_round]
    exact ⟨r.value_nonneg hnonneg, r.value_mono hle⟩
  · intro hlonger hfree
    have hrises := penalty_mono hpolicy hlonger hfree hx hx'
    refine ⟨le_iff_toRat.2 hrises, fun r => ?_⟩
    unfold rounded
    rw [le_iff_toRat, r.toRat_round, r.toRat_round]
    exact r.value_mono hrises

/-- An hour, and a minute more together with an absence, at a daily rate
of six places, where a minor delay is not free. -/
theorem delay_penalty_rises_past_hour :
    ∃ x x', compute { delayMinutes := 60 } (.of 4666666667 6)
        ⟨.of 500 0, .of 15 1⟩ (.of 75 1) = .ok x
      ∧ compute { delayMinutes := 61, absenceDays := .of 15 1 }
        (.of 4666666667 6) ⟨.of 500 0, .of 15 1⟩ (.of 75 1) = .ok x'
      ∧ x.delayPenalty ≤ x'.delayPenalty
      ∧ x'.delayPenalty ≤ .of 4666666667 6 := by
  obtain ⟨y, hy, -⟩ := exists_ok_of_any (q := fun _ => true)
    (show (compute { delayMinutes := 60 } (.of 4666666667 6)
        ⟨.of 500 0, .of 15 1⟩ (.of 75 1)).toOption.any (fun _ => true)
        = true by
      decide +kernel)
  obtain ⟨y', hy', -⟩ := exists_ok_of_any (q := fun _ => true)
    (show (compute { delayMinutes := 61, absenceDays := .of 15 1 }
        (.of 4666666667 6) ⟨.of 500 0, .of 15 1⟩ (.of 75 1)).toOption.any
        (fun _ => true) = true by
      decide +kernel)
  obtain ⟨x, x', hx, hx', -, -, -, hrises, -⟩ :=
    delay_penalty_rises (by decide +kernel) (by decide +kernel)
      ⟨by decide +kernel, by decide +kernel⟩ (by decide +kernel)
      (by decide +kernel) (.of_ok hy) (.of_ok hy')
  have hle := (hrises (by decide) (.inl (by decide))).1
  obtain ⟨share, -, hp⟩ := (computed hx').penalty_ok
  exact ⟨x, x', hx, hx', hle,
    le_iff_toRat.2 (penalty_le (computed hx').rate_nonneg hp)⟩

end Adjustment

end Payroll
