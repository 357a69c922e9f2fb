/-
The operations on amounts, each with its lemma: sums, differences and
products answer for the exact result (`Rounds`), and rounding to places,
`floor` and `ceil` are the integer roundings of the value. Division has
a file of its own (`Proofs.Decimal.Division`).
-/
import Mathlib.Data.Nat.Cast.Field
import Mathlib.Data.Nat.Cast.Order.Field
import Payroll.Proofs.Decimal.Value
import Payroll.Rounding

namespace Payroll.Decimal

-- =========================================================== the answers

/-- Only an optional amount that is there passes for a result. -/
theorem orFault_eq_ok {f : Fault} {o : Option Decimal} {a : Decimal} :
    orFault f o = .ok a ↔ o = some a := by
  cases o <;> simp [orFault]

/-- A result is the exact one, rounded. -/
theorem Rounds.toRat_of_ok {v : ℚ} {o : Option Decimal} {f : Fault}
    {a : Decimal} (h : Rounds v o) (ho : orFault f o = .ok a) :
    a.toRat = nearest v := by
  rw [orFault_eq_ok] at ho
  subst ho
  exact h.2

/-- Only results in range are given. -/
theorem Rounds.inRange_of_ok {v : ℚ} {o : Option Decimal} {f : Fault}
    {a : Decimal} (h : Rounds v o) (ho : orFault f o = .ok a) :
    InRange v := by
  rw [orFault_eq_ok] at ho
  subst ho
  exact h.1

/-- Every result in range is given. -/
theorem Rounds.exists_ok {v : ℚ} {o : Option Decimal} (h : Rounds v o)
    (hv : InRange v) (f : Fault) :
    ∃ a, orFault f o = .ok a ∧ a.toRat = nearest v := by
  cases o with
  | none => exact absurd hv h
  | some a => exact ⟨a, rfl, h.2⟩

-- ============================================ sums, differences, products

theorem add?_rounds (a b : Decimal) :
    Rounds (a.toRat + b.toRat) (a.add? b) := by
  unfold add?
  split
  · rename_i ha
    rw [isZero_iff] at ha
    exact rounds_self (by rw [ha, zero_add])
  · split
    · rename_i hb
      rw [isZero_iff] at hb
      exact rounds_self (by rw [hb, add_zero])
    · have hsplit : ∀ s ≤ max a.scale b.scale,
          (10 : ℚ) ^ max a.scale b.scale
            = 10 ^ s * 10 ^ (max a.scale b.scale - s) := fun s hs => by
        rw [← pow_add, Nat.add_sub_cancel' hs]
      have hpart : ∀ (c : ℤ) (s : ℕ), s ≤ max a.scale b.scale →
          (c : ℚ) / 10 ^ s = (c * 10 ^ (max a.scale b.scale - s))
            / 10 ^ max a.scale b.scale := fun c s hs => by
        have := (pow_ten_pos' s).ne'
        have := (pow_ten_pos' (max a.scale b.scale - s)).ne'
        rw [hsplit s hs]
        field_simp
      have hexact : a.toRat + b.toRat
          = ((a.coefficient * 10 ^ (max a.scale b.scale - a.scale)
              + b.coefficient * 10 ^ (max a.scale b.scale - b.scale) : ℤ)
            : ℚ) / 10 ^ max a.scale b.scale := by
        rw [toRat_eq, toRat_eq, hpart _ _ (le_max_left _ _),
          hpart _ _ (le_max_right _ _), ← add_div]
        push_cast
        rfl
      rw [hexact]
      exact fit_rounds _ _

/-- Adding nothing is always possible and changes no value. -/
theorem exists_add_of_zero (a : Decimal) {b : Decimal} (hb : b.toRat = 0) :
    ∃ c, a.add b = .ok c ∧ c.toRat = a.toRat := by
  have hrounds := add?_rounds a b
  rw [hb, add_zero] at hrounds
  obtain ⟨c, hc, hvalue⟩ :=
    hrounds.exists_ok (inRange_toRat a) .additionOverflow
  exact ⟨c, hc, hvalue.trans (nearest_toRat a)⟩

theorem sub?_rounds (a b : Decimal) :
    Rounds (a.toRat - b.toRat) (a.sub? b) := by
  unfold sub?
  split
  · rename_i hb
    rw [isZero_iff] at hb
    refine rounds_self ?_
    split
    · rename_i ha
      rw [isZero_iff] at ha
      rw [ha, hb, sub_zero]
    · rw [hb, sub_zero]
  · have := add?_rounds a (-b)
    rwa [toRat_neg, ← sub_eq_add_neg] at this

/-- Where a product of small magnitudes is cut off early, no digit of it
would have been kept. -/
private theorem nearest_eq_zero_of_tiny {v : ℚ}
    (h : |v| * 10 ^ maxScale < 1 / 2) : InRange v ∧ nearest v = 0 := by
  have hone : (1 : ℚ) ≤ 10 ^ maxScale := one_le_pow₀ (by norm_num)
  have hrange : InRange v := by
    refine lt_of_le_of_lt (le_mul_of_one_le_right (abs_nonneg v) hone) ?_
    unfold reach
    linarith
  have hdigits : digitsFor v = maxScale := by
    refine digitsFor_eq le_rfl ?_ (Or.inl rfl)
    unfold reach
    linarith
  have hzero : Tie.toEven.nearest (v * 10 ^ maxScale) = 0 := by
    refine Tie.nearest_eq_of_abs_lt _ ?_
    rw [Int.cast_zero, sub_zero, abs_mul,
      abs_of_pos (pow_ten_pos' maxScale)]
    exact h
  refine ⟨hrange, ?_⟩
  rw [nearest, hdigits, hzero, Int.cast_zero, zero_div]

theorem mul_toRat (a b : Decimal) : a.toRat * b.toRat
    = ((a.coefficient * b.coefficient : ℤ) : ℚ)
      / 10 ^ (a.scale + b.scale) := by
  rw [toRat_eq, toRat_eq, div_mul_div_comm, ← pow_add]
  push_cast
  rfl

theorem mul?_rounds (a b : Decimal) :
    Rounds (a.toRat * b.toRat) (a.mul? b) := by
  unfold mul?
  simp only
  split
  · rename_i hzero
    rw [Bool.or_eq_true, isZero_iff, isZero_iff] at hzero
    refine rounds_self ?_
    rw [toRat_zero]
    exact (mul_eq_zero.2 hzero).symm
  · split
    · rename_i htiny
      obtain ⟨hscale, hsmall⟩ := htiny
      simp only [isSmall, Bool.and_eq_true, decide_eq_true_eq] at hsmall
      have hmagnitude :
          |((a.coefficient * b.coefficient : ℤ) : ℚ)| < 2 ^ 64 := by
        have : (a.coefficient * b.coefficient).natAbs < 2 ^ 64 := by
          rw [Int.natAbs_mul, natAbs_coefficient, natAbs_coefficient]
          calc a.magnitude * b.magnitude
              ≤ 2 ^ 32 * b.magnitude :=
                Nat.mul_le_mul_right _ hsmall.1.le
            _ < 2 ^ 32 * 2 ^ 32 :=
                Nat.mul_lt_mul_of_pos_left hsmall.2 (by norm_num)
            _ = 2 ^ 64 := by norm_num
        rw [← Int.cast_abs, Int.abs_eq_natAbs]
        exact_mod_cast this
      have hpow : (10 : ℚ) ^ 48 ≤ 10 ^ (a.scale + b.scale) :=
        pow_le_pow_right₀ (by norm_num) hscale
      have htiny : |a.toRat * b.toRat| * 10 ^ maxScale < 1 / 2 := by
        rw [mul_toRat, abs_div,
          abs_of_pos (pow_ten_pos' (a.scale + b.scale)), div_mul_eq_mul_div,
          div_lt_iff₀ (pow_ten_pos' _)]
        unfold maxScale
        norm_num at hpow hmagnitude ⊢
        linarith
      obtain ⟨hrange, hzero⟩ := nearest_eq_zero_of_tiny htiny
      exact ⟨hrange, by rw [toRat_zero, hzero]⟩
    · have hfit := fit_rounds (a.coefficient * b.coefficient)
        (a.scale + b.scale)
      rw [← mul_toRat] at hfit
      cases hm : fit (a.coefficient * b.coefficient) (a.scale + b.scale) with
      | none =>
          rw [hm] at hfit
          exact hfit
      | some m =>
          rw [hm] at hfit
          refine ⟨hfit.1, ?_⟩
          rw [← hfit.2]
          simp only [apply_ite toRat, toRat_signZero, ite_self]

-- ============================================================== rounding

/-- Rounding to places rounds the value, also where the amount has no
more places and is left as it is. -/
theorem toRat_round (tie : Tie) (places : ℕ) (a : Decimal) :
    (a.round tie places).toRat
      = tie.nearest (a.toRat * 10 ^ places) / 10 ^ places := by
  have hpow := (pow_ten_pos' places).ne'
  unfold round
  split
  · rename_i h
    have hint : a.toRat * 10 ^ places
        = ((a.coefficient * 10 ^ (places - a.scale) : ℤ) : ℚ) := by
      have := (pow_ten_pos' a.scale).ne'
      have hsplit : (10 : ℚ) ^ places
          = 10 ^ a.scale * 10 ^ (places - a.scale) := by
        rw [← pow_add, Nat.add_sub_cancel' h]
      rw [toRat_eq, hsplit]
      push_cast
      field_simp
    rw [hint, Tie.nearest_intCast, ← hint]
    field_simp
  · rename_i h
    have hcut : (a.coefficient : ℚ) / ((10 ^ (a.scale - places) : ℕ) : ℚ)
        = a.toRat * 10 ^ places := by
      have hcut' := (pow_ten_pos' (a.scale - places)).ne'
      have hsplit : (10 : ℚ) ^ a.scale
          = 10 ^ (a.scale - places) * 10 ^ places := by
        rw [← pow_add, Nat.sub_add_cancel (Nat.le_of_not_le h)]
      rw [toRat_eq, hsplit]
      push_cast
      field_simp
    rw [toRat_signZero, toRat_of,
      quotient_eq_nearest _ _ (Nat.pow_pos (by norm_num)), hcut]

/-- The value of an amount by its sign and its magnitude. -/
theorem toRat_eq_sign (a : Decimal) : a.toRat
    = (if a.negative then -1 else 1) * (a.magnitude / 10 ^ a.scale) := by
  rw [toRat_eq]
  cases h : a.negative with
  | false => simp [coefficient, h]
  | true =>
      simp only [coefficient, h, if_true]
      push_cast
      ring

theorem toRat_floor (a : Decimal) : a.floor.toRat = ⌊a.toRat⌋ := by
  have hfloor : ⌊a.toRat⌋ = a.coefficient / ((10 ^ a.scale : ℕ) : ℤ) := by
    rw [← Rat.floor_intCast_div_natCast, toRat_eq]
    push_cast
    rfl
  unfold floor
  split
  · rename_i h
    have hwhole : a.trunc.toRat = a.toRat := by
      rw [toRat_eq_sign, toRat_eq_sign]
      show _ * (((a.magnitude / 10 ^ a.scale : ℕ) : ℚ) / 10 ^ 0) = _
      rw [pow_zero, div_one, Nat.cast_div (Nat.dvd_of_mod_eq_zero h)
        (by exact_mod_cast (pow_ten_pos' a.scale).ne')]
      push_cast
      rfl
    have hint : a.trunc.toRat = (a.trunc.coefficient : ℤ) := by
      rw [toRat_eq]
      show (a.trunc.coefficient : ℚ) / 10 ^ 0 = _
      rw [pow_zero, div_one]
    rw [← hwhole, hint, Int.floor_intCast]
  · rw [toRat_of, hfloor, pow_zero, div_one]

theorem toRat_ceil (a : Decimal) : a.ceil.toRat = ⌈a.toRat⌉ := by
  unfold ceil
  rw [toRat_neg, toRat_floor, toRat_neg, Int.floor_neg]
  push_cast
  rw [neg_neg]

end Payroll.Decimal
