/-
Rounding as a function of values. Every operation on amounts forms an
exact result and then looks for an amount near it; which one it finds
hangs on the exact value alone, never on the spelling of the operands.
`nearest` is that choice as a function on the rationals, and `InRange`
says for which values there is a choice at all.

# The grid

An amount has at most 28 fraction digits and a coefficient below 2^96.
`digitsFor v` is the largest number of fraction digits at which `v`,
rounded, still has such a coefficient, and `nearest v` is `v` rounded
to that many. The bound on `v * 10 ^ g` is `reach`, which is 2^96 - 1/2
and not 2^96: what lies above it is rounded up to 2^96 itself, which
is even, and then no longer fits.

# What later files use

`nearest` is monotone, odd, and leaves every amount as it is. The only
step that takes care is monotonicity across a change of grid: the
larger value has the coarser grid, and the finer one ends, by the
choice of `reach`, below the first point that the coarser value can be
rounded to.
-/
import Mathlib.Data.Nat.Find
import Mathlib.Data.Rat.Floor
import Mathlib.Tactic.FieldSimp
import Mathlib.Tactic.Linarith
import Mathlib.Tactic.NormNum
import Mathlib.Tactic.Positivity
import Mathlib.Tactic.Ring
import Payroll.Decimal.Fit

namespace Payroll.Decimal

-- ================================================== the nearest integer

/-- Whether a value half-way between two integers goes to the upper
one. -/
def Tie.prefersUp (x : ℚ) : Tie → Prop
  | .toEven => ⌊x⌋ % 2 = 1
  | .awayFromZero => 0 ≤ x

instance (x : ℚ) (tie : Tie) : Decidable (tie.prefersUp x) := by
  cases tie <;> unfold Tie.prefersUp <;> infer_instance

/-- The integer nearest to a value, a tie going where `tie` says. -/
def Tie.nearest (tie : Tie) (x : ℚ) : ℤ :=
  if 1 / 2 < Int.fract x ∨ Int.fract x = 1 / 2 ∧ tie.prefersUp x then
    ⌊x⌋ + 1
  else ⌊x⌋

/-- Rounding a quotient reads nothing of numerator and denominator but
their ratio. -/
theorem quotient_eq_nearest (tie : Tie) (n : ℤ) {d : ℕ} (hd : 0 < d) :
    quotient tie n d = tie.nearest ((n : ℚ) / d) := by
  have hd' : (0 : ℚ) < d := by exact_mod_cast hd
  have hfloor : ⌊(n : ℚ) / d⌋ = n / (d : ℤ) :=
    Rat.floor_intCast_div_natCast n d
  have hfract : Int.fract ((n : ℚ) / d) = ((n % (d : ℤ) : ℤ) : ℚ) / d :=
    Int.fract_div_intCast_eq_div_intCast_mod
  have habove : 1 / 2 < Int.fract ((n : ℚ) / d)
      ↔ (d : ℤ) < 2 * (n % d) := by
    rw [hfract, lt_div_iff₀ hd', ← @Int.cast_lt ℚ]
    push_cast
    constructor <;> intro h <;> linarith
  have htie : Int.fract ((n : ℚ) / d) = 1 / 2
      ↔ 2 * (n % d) = (d : ℤ) := by
    rw [hfract, div_eq_iff hd'.ne', ← @Int.cast_inj ℚ]
    push_cast
    constructor <;> intro h <;> linarith
  have hup : tie.prefersUp ((n : ℚ) / d) ↔ tie.goesUp n d = true := by
    cases tie with
    | toEven => simp [Tie.prefersUp, Tie.goesUp, hfloor]
    | awayFromZero =>
        simp only [Tie.prefersUp, Tie.goesUp, decide_eq_true_eq]
        rw [le_div_iff₀ hd', zero_mul, Int.cast_nonneg_iff]
  unfold quotient Tie.nearest
  simp only [habove, htie, hup, hfloor]
  by_cases h : (d : ℤ) < 2 * (n % d)
  · rw [if_pos h, if_pos (Or.inl h)]
  · rw [if_neg h]
    simp only [h, false_or]

theorem Tie.floor_le_nearest (tie : Tie) (x : ℚ) : ⌊x⌋ ≤ tie.nearest x := by
  unfold Tie.nearest
  split <;> omega

theorem Tie.nearest_intCast (tie : Tie) (n : ℤ) : tie.nearest n = n := by
  unfold Tie.nearest
  rw [Int.fract_intCast, Int.floor_intCast, if_neg (by norm_num)]

/-- A value less than one half away from an integer is rounded to
it. -/
theorem Tie.nearest_eq_of_abs_lt (tie : Tie) {x : ℚ} {n : ℤ}
    (h : |x - n| < 1 / 2) : tie.nearest x = n := by
  rw [abs_lt] at h
  rcases le_or_gt (n : ℚ) x with hn | hn
  · have hfloor : ⌊x⌋ = n := Int.floor_eq_iff.2 ⟨hn, by linarith⟩
    have hfract : Int.fract x = x - n := by rw [Int.fract, hfloor]
    unfold Tie.nearest
    rw [hfract, hfloor, if_neg]
    rintro (h' | ⟨h', -⟩) <;> linarith
  · have hfloor : ⌊x⌋ = n - 1 :=
      Int.floor_eq_iff.2 ⟨by push_cast; linarith, by push_cast; linarith⟩
    have hfract : Int.fract x = x - n + 1 := by
      rw [Int.fract, hfloor]
      push_cast
      ring
    unfold Tie.nearest
    rw [hfract, hfloor, if_pos (Or.inl (by linarith))]
    ring

/-- No value is moved by more than one half. -/
theorem Tie.abs_nearest_sub_le (tie : Tie) (x : ℚ) :
    |(tie.nearest x : ℚ) - x| ≤ 1 / 2 := by
  have hx : (⌊x⌋ : ℚ) + Int.fract x = x := Int.floor_add_fract x
  have h0 := Int.fract_nonneg x
  have h1 := Int.fract_lt_one x
  unfold Tie.nearest
  rw [abs_le]
  split
  · rename_i h
    have : 1 / 2 ≤ Int.fract x := by
      rcases h with h | ⟨h, -⟩ <;> linarith
    push_cast
    constructor <;> linarith
  · rename_i h
    have : Int.fract x ≤ 1 / 2 := by
      by_contra hc
      exact h (Or.inl (not_le.1 hc))
    constructor <;> linarith

/-- Rounding keeps the order. Were two values swapped, both would lie
on the half-way point between their integers, hence be one value. -/
theorem Tie.nearest_mono (tie : Tie) {x y : ℚ} (hxy : x ≤ y) :
    tie.nearest x ≤ tie.nearest y := by
  by_contra hlt
  have hstep : ((tie.nearest y : ℤ) : ℚ) + 1 ≤ tie.nearest x := by
    exact_mod_cast not_le.1 hlt
  have hx := abs_le.1 (tie.abs_nearest_sub_le x)
  have hy := abs_le.1 (tie.abs_nearest_sub_le y)
  have hxy' : x = y := by linarith
  exact hlt (le_of_eq (congrArg tie.nearest hxy'))

/-- Rounding has no side: the opposite value is rounded to the opposite
integer. -/
theorem Tie.nearest_neg (tie : Tie) (x : ℚ) :
    tie.nearest (-x) = -tie.nearest x := by
  by_cases hint : Int.fract x = 0
  · have hx : x = (⌊x⌋ : ℤ) := by
      have := Int.floor_add_fract x
      rw [hint, add_zero] at this
      exact this.symm
    rw [hx, ← Int.cast_neg, tie.nearest_intCast, tie.nearest_intCast]
  · have hfract : Int.fract (-x) = 1 - Int.fract x := Int.fract_neg hint
    have hfloor : ⌊-x⌋ = -⌊x⌋ - 1 := by
      have h₁ := Int.floor_add_fract x
      have h₂ := Int.floor_add_fract (-x)
      rw [hfract] at h₂
      have : ((⌊-x⌋ : ℤ) : ℚ) = ((-⌊x⌋ - 1 : ℤ) : ℚ) := by
        push_cast
        linarith
      exact_mod_cast this
    -- at one half exactly one of the two values prefers the upper side
    have hside : Int.fract x = 1 / 2 →
        (tie.prefersUp (-x) ↔ ¬tie.prefersUp x) := by
      intro hhalf
      cases tie with
      | toEven =>
          simp only [Tie.prefersUp, hfloor]
          omega
      | awayFromZero =>
          have hne : x ≠ 0 := by
            rintro rfl
            norm_num at hhalf
          simp only [Tie.prefersUp, Left.nonneg_neg_iff, not_le]
          exact ⟨fun h => lt_of_le_of_ne h hne, le_of_lt⟩
    unfold Tie.nearest
    rw [hfract, hfloor]
    rcases lt_trichotomy (Int.fract x) (1 / 2) with h | h | h
    · rw [if_pos (Or.inl (by linarith)),
        if_neg (by rintro (h' | ⟨h', -⟩) <;> linarith)]
      ring
    · by_cases hup : tie.prefersUp x
      · rw [if_neg, if_pos (Or.inr ⟨h, hup⟩)]
        · ring
        · rintro (h' | ⟨-, h'⟩)
          · linarith
          · exact (hside h).1 h' hup
      · rw [if_pos (Or.inr ⟨by linarith, (hside h).2 hup⟩), if_neg]
        · ring
        · rintro (h' | ⟨-, h'⟩)
          · linarith
          · exact hup h'
    · rw [if_neg (by rintro (h' | ⟨h', -⟩) <;> linarith),
        if_pos (Or.inl h)]
      ring

-- ============================================================== the grid

/-- The first magnitude that no coefficient can be rounded to: half a
unit below the limit a tie goes up to the limit, which is even. -/
def reach : ℚ := 2 ^ 96 - 1 / 2

/-- Whether a value has an amount near it. -/
def InRange (v : ℚ) : Prop := |v| < reach

instance (v : ℚ) : Decidable (InRange v) :=
  inferInstanceAs (Decidable (_ < _))

/-- The number of fraction digits that a value is rounded to: as many
as its coefficient leaves room for, and at most 28. -/
def digitsFor (v : ℚ) : ℕ :=
  Nat.findGreatest (fun g => |v| * 10 ^ g < reach) maxScale

/-- A value rounded to the digits that it has room for. -/
def nearest (v : ℚ) : ℚ :=
  Tie.toEven.nearest (v * 10 ^ digitsFor v) / 10 ^ digitsFor v

theorem pow_ten_pos' (g : ℕ) : (0 : ℚ) < 10 ^ g := by positivity

/-- Whether a rounded coefficient is below the limit shows before
rounding. -/
theorem natAbs_nearest_lt_iff (x : ℚ) :
    (Tie.toEven.nearest x).natAbs < limit ↔ |x| < reach := by
  have htop : Tie.toEven.nearest reach = 2 ^ 96 := by
    have hfloor : ⌊reach⌋ = 2 ^ 96 - 1 := by
      rw [Int.floor_eq_iff]
      norm_num [reach]
    have hfract : Int.fract reach = 1 / 2 := by
      rw [Int.fract, hfloor]
      norm_num [reach]
    have hup : Tie.toEven.prefersUp reach := by
      show ⌊reach⌋ % 2 = 1
      rw [hfloor]
      norm_num
    unfold Tie.nearest
    rw [if_pos (Or.inr ⟨hfract, hup⟩), hfloor]
    norm_num
  constructor
  · intro h
    by_contra hge
    rcases le_abs.1 (not_lt.1 hge) with hx | hx
    · have := Tie.toEven.nearest_mono hx
      rw [htop] at this
      unfold limit at h
      omega
    · have := Tie.toEven.nearest_mono hx
      rw [htop, Tie.nearest_neg] at this
      unfold limit at h
      omega
  · intro h
    have hclose := abs_le.1 (Tie.toEven.abs_nearest_sub_le x)
    have hx := abs_lt.1 h
    have hlow : ((-2 ^ 96 : ℤ) : ℚ) < Tie.toEven.nearest x := by
      push_cast
      unfold reach at hx
      linarith
    have hhigh : (Tie.toEven.nearest x : ℚ) < ((2 ^ 96 : ℤ) : ℚ) := by
      push_cast
      unfold reach at hx
      linarith
    have hlow' := Int.cast_lt.1 hlow
    have hhigh' := Int.cast_lt.1 hhigh
    unfold limit
    omega

theorem digitsFor_le (v : ℚ) : digitsFor v ≤ maxScale :=
  Nat.findGreatest_le _

theorem le_digitsFor {v : ℚ} {g : ℕ} (hg : g ≤ maxScale)
    (h : |v| * 10 ^ g < reach) : g ≤ digitsFor v :=
  Nat.le_findGreatest hg h

/-- The digits are as many as fit, if anything fits. -/
theorem digitsFor_eq {v : ℚ} {g : ℕ} (hg : g ≤ maxScale)
    (hlt : |v| * 10 ^ g < reach)
    (hmax : g = maxScale ∨ reach ≤ |v| * 10 ^ (g + 1)) :
    digitsFor v = g := by
  refine Nat.findGreatest_eq_iff.2 ⟨hg, fun _ => hlt, ?_⟩
  intro k hk hk' hfits
  rcases hmax with rfl | hmax
  · omega
  · have hpow : (10 : ℚ) ^ (g + 1) ≤ 10 ^ k :=
      pow_le_pow_right₀ (by norm_num) hk
    have := mul_le_mul_of_nonneg_left hpow (abs_nonneg v)
    linarith

/-- One digit more than its own takes a value out of reach. -/
theorem reach_le_of_digitsFor_lt {v : ℚ} (h : digitsFor v < maxScale) :
    reach ≤ |v| * 10 ^ (digitsFor v + 1) := by
  by_contra hlt
  have := le_digitsFor h (not_le.1 hlt)
  omega

theorem nearest_zero : nearest 0 = 0 := by
  have h := Tie.toEven.nearest_intCast 0
  rw [Int.cast_zero] at h
  rw [nearest, zero_mul, h, Int.cast_zero, zero_div]

theorem digitsFor_neg (v : ℚ) : digitsFor (-v) = digitsFor v := by
  unfold digitsFor
  rw [abs_neg]

theorem nearest_neg (v : ℚ) : nearest (-v) = -nearest v := by
  unfold nearest
  rw [digitsFor_neg, neg_mul, Tie.nearest_neg]
  push_cast
  ring

theorem inRange_neg {v : ℚ} : InRange (-v) ↔ InRange v := by
  unfold InRange
  rw [abs_neg]

/-- What is closer to zero than a value in range is in range. -/
theorem InRange.of_abs_le {u v : ℚ} (h : InRange v) (huv : |u| ≤ |v|) :
    InRange u :=
  lt_of_le_of_lt huv h

/-- What can be written with a coefficient in range stays as it is. -/
theorem nearest_eq_self {v : ℚ} {n : ℤ} {g : ℕ} (hn : n.natAbs < limit)
    (hg : g ≤ maxScale) (hv : v = n / 10 ^ g) : nearest v = v := by
  have hpos := pow_ten_pos' g
  have hscaled : v * 10 ^ g = n := by
    rw [hv]
    field_simp
  have hfits : |v| * 10 ^ g < reach := by
    rw [← abs_of_pos hpos, ← abs_mul, hscaled, ← natAbs_nearest_lt_iff,
      Tie.nearest_intCast]
    exact hn
  have hle := le_digitsFor hg hfits
  have hint : v * 10 ^ digitsFor v
      = ((n * 10 ^ (digitsFor v - g) : ℤ) : ℚ) := by
    push_cast
    rw [← hscaled, mul_assoc, ← pow_add, Nat.add_sub_cancel' hle]
  unfold nearest
  rw [hint, Tie.nearest_intCast, ← hint]
  have := (pow_ten_pos' (digitsFor v)).ne'
  field_simp

/-- The first point above the grid of one digit more: every value that
is out of reach of the finer grid is rounded to it or further up. -/
private theorem coarse_point_le {x : ℚ} (h : reach ≤ x * 10) :
    7922816251426433759354395034 ≤ Tie.toEven.nearest x := by
  have hpoint : Tie.toEven.nearest (reach / 10)
      = 7922816251426433759354395034 := by
    refine Tie.nearest_eq_of_abs_lt _ ?_
    rw [abs_lt]
    constructor <;> norm_num [reach]
  have := Tie.toEven.nearest_mono (show reach / 10 ≤ x by linarith)
  omega

private theorem nearest_mono_of_nonneg {u v : ℚ} (hu : 0 ≤ u)
    (huv : u ≤ v) : nearest u ≤ nearest v := by
  have hv : 0 ≤ v := hu.trans huv
  have hgrid : digitsFor v ≤ digitsFor u := by
    rcases Nat.eq_zero_or_pos (digitsFor v) with h0 | hpos
    · omega
    · have hfits : |v| * 10 ^ digitsFor v < reach :=
        (Nat.findGreatest_eq_iff.1 rfl).2.1 hpos.ne'
      refine le_digitsFor (digitsFor_le v) (lt_of_le_of_lt ?_ hfits)
      rw [abs_of_nonneg hu, abs_of_nonneg hv]
      exact mul_le_mul_of_nonneg_right huv (pow_ten_pos' _).le
  rcases hgrid.eq_or_lt with heq | hlt
  · -- one grid: the integers keep the order
    unfold nearest
    rw [heq]
    have hscaled : u * 10 ^ digitsFor u ≤ v * 10 ^ digitsFor u :=
      mul_le_mul_of_nonneg_right huv (pow_ten_pos' _).le
    have := Tie.toEven.nearest_mono hscaled
    exact div_le_div_of_nonneg_right (Int.cast_le.2 this)
      (pow_ten_pos' _).le
  · -- a finer grid for the smaller value: it ends below the coarser one
    have hfits : |u| * 10 ^ digitsFor u < reach :=
      (Nat.findGreatest_eq_iff.1 rfl).2.1
        (show digitsFor u ≠ 0 by omega)
    have hbelow : (Tie.toEven.nearest (u * 10 ^ digitsFor u) : ℚ)
        < 2 ^ 96 := by
      rw [abs_of_nonneg hu] at hfits
      have := abs_le.1 (Tie.toEven.abs_nearest_sub_le
        (u * 10 ^ digitsFor u))
      unfold reach at hfits
      linarith
    have hout : reach ≤ v * 10 ^ digitsFor v * 10 := by
      have := reach_le_of_digitsFor_lt
        (lt_of_lt_of_le hlt (digitsFor_le u))
      rwa [abs_of_nonneg hv, pow_succ, ← mul_assoc] at this
    have habove : (7922816251426433759354395034 : ℚ)
        ≤ Tie.toEven.nearest (v * 10 ^ digitsFor v) := by
      exact_mod_cast coarse_point_le hout
    have hpow : (10 : ℚ) ^ digitsFor v * 10 ≤ 10 ^ digitsFor u := by
      rw [← pow_succ]
      exact pow_le_pow_right₀ (by norm_num) hlt
    unfold nearest
    rw [div_le_div_iff₀ (pow_ten_pos' _) (pow_ten_pos' _)]
    calc (Tie.toEven.nearest (u * 10 ^ digitsFor u) : ℚ)
          * 10 ^ digitsFor v
        ≤ 2 ^ 96 * 10 ^ digitsFor v :=
          mul_le_mul_of_nonneg_right hbelow.le (pow_ten_pos' _).le
      _ ≤ 7922816251426433759354395034 * (10 ^ digitsFor v * 10) := by
          have := pow_ten_pos' (digitsFor v)
          linarith
      _ ≤ 7922816251426433759354395034 * 10 ^ digitsFor u :=
          mul_le_mul_of_nonneg_left hpow (by norm_num)
      _ ≤ Tie.toEven.nearest (v * 10 ^ digitsFor v) * 10 ^ digitsFor u :=
          mul_le_mul_of_nonneg_right habove (pow_ten_pos' _).le

/-- Nothing is rounded below zero that was not below it. -/
theorem nearest_nonneg {v : ℚ} (h : 0 ≤ v) : 0 ≤ nearest v := by
  have := nearest_mono_of_nonneg le_rfl h
  rwa [nearest_zero] at this

/-- Rounding to amounts keeps the order, across zero and across every
change of grid. -/
theorem nearest_mono : Monotone nearest := by
  intro u v huv
  rcases le_total 0 u with hu | hu
  · exact nearest_mono_of_nonneg hu huv
  · rcases le_total 0 v with hv | hv
    · have h₁ := nearest_nonneg (neg_nonneg.2 hu)
      have h₂ := nearest_nonneg hv
      rw [nearest_neg] at h₁
      linarith
    · have := nearest_mono_of_nonneg (neg_nonneg.2 hv) (neg_le_neg huv)
      rw [nearest_neg, nearest_neg] at this
      linarith

end Payroll.Decimal
