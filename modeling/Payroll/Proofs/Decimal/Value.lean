/-
What arithmetic does to values. Sums, differences, products and
quotients of amounts are formed in three different ways (on a common
scale, on coefficients, digit by digit), and each of them ends in the
same place: the exact result, rounded by `nearest`, or no result at all
when the exact one is out of range. `Rounds v` says so of an optional
amount, and every operation has one lemma of that form.

So a calculation can be followed on the rationals, where `nearest` is
monotone, and never needs to know how an amount is spelled.

# The one seam

Rounding can carry a coefficient up to the limit, and `settle` then
gives up a digit more. That this is still `nearest`, and not a second
rounding, holds because a carry only happens above `reach`, which is
where `digitsFor` counts one digit less. `settle_rounds` is that
argument; sums, products and quotients all end there.
-/
import Payroll.Decimal.Division
import Payroll.Decimal.Rounding
import Payroll.Proofs.Decimal.Nearest

namespace Payroll.Decimal

-- ============================================================ the value

theorem toRat_eq (a : Decimal) : a.toRat = a.coefficient / 10 ^ a.scale := by
  rw [toRat, Rat.mkRat_eq_div]
  push_cast
  rfl

@[simp] theorem toRat_of (n : ℤ) (s : ℕ) (hn : n.natAbs < limit)
    (hs : s ≤ maxScale) : (of n s hn hs).toRat = n / 10 ^ s := by
  rw [toRat_eq, coefficient_of]
  rfl

@[simp] theorem toRat_ofNat (n : ℕ) (h : n < limit) :
    (ofNat n h).toRat = n := by
  rw [toRat_eq]
  simp [ofNat, coefficient]

@[simp] theorem toRat_zero : zero.toRat = 0 := by
  rw [zero, toRat_ofNat, Nat.cast_zero]

@[simp] theorem toRat_one : one.toRat = 1 := by
  rw [one, toRat_ofNat, Nat.cast_one]

@[simp] theorem toRat_neg (a : Decimal) : (-a).toRat = -a.toRat := by
  rw [toRat_eq, toRat_eq, coefficient_neg]
  show ((-a.coefficient : ℤ) : ℚ) / 10 ^ a.scale = _
  push_cast
  ring

@[simp] theorem toRat_signZero (negative : Bool) (a : Decimal) :
    (a.signZero negative).toRat = a.toRat := by
  rw [toRat_eq, toRat_eq, coefficient_signZero, scale_signZero]

theorem isZero_iff {a : Decimal} : a.isZero = true ↔ a.toRat = 0 := by
  have hpow := (pow_ten_pos' a.scale).ne'
  rw [toRat_eq, div_eq_zero_iff, or_iff_left hpow, Int.cast_eq_zero,
    ← Int.natAbs_eq_zero, natAbs_coefficient]
  simp [isZero]

/-- The order of amounts is the order of their values. -/
theorem le_iff_toRat {a b : Decimal} : a ≤ b ↔ a.toRat ≤ b.toRat := by
  rw [toRat_eq, toRat_eq,
    div_le_div_iff₀ (pow_ten_pos' _) (pow_ten_pos' _)]
  show a.coefficient * 10 ^ b.scale ≤ b.coefficient * 10 ^ a.scale ↔ _
  exact_mod_cast Iff.rfl

theorem lt_iff_toRat {a b : Decimal} : a < b ↔ a.toRat < b.toRat := by
  rw [toRat_eq, toRat_eq,
    div_lt_div_iff₀ (pow_ten_pos' _) (pow_ten_pos' _)]
  show a.coefficient * 10 ^ b.scale < b.coefficient * 10 ^ a.scale ↔ _
  exact_mod_cast Iff.rfl

/-- Equivalent amounts are those of one value. -/
theorem equiv_iff_toRat {a b : Decimal} : a ≈ b ↔ a.toRat = b.toRat := by
  rw [toRat_eq, toRat_eq,
    div_eq_div_iff (pow_ten_pos' _).ne' (pow_ten_pos' _).ne']
  show a.coefficient * 10 ^ b.scale = b.coefficient * 10 ^ a.scale ↔ _
  exact_mod_cast Iff.rfl

@[simp] theorem toRat_min (a b : Decimal) :
    (min a b).toRat = min a.toRat b.toRat := by
  show (if b < a then b else a).toRat = _
  split
  · rename_i h
    exact (min_eq_right (lt_iff_toRat.1 h).le).symm
  · rename_i h
    rw [lt_iff_toRat, not_lt] at h
    exact (min_eq_left h).symm

/-- An amount is its own nearest amount. -/
@[simp] theorem nearest_toRat (a : Decimal) : nearest a.toRat = a.toRat :=
  nearest_eq_self (by simpa using a.magnitude_lt) a.scale_le (toRat_eq a)

theorem abs_toRat_lt (a : Decimal) : |a.toRat| ≤ 2 ^ 96 - 1 := by
  have hcoefficient : |(a.coefficient : ℚ)| ≤ 2 ^ 96 - 1 := by
    have hlt := a.magnitude_lt
    rw [← natAbs_coefficient a] at hlt
    unfold limit at hlt
    have : |a.coefficient| ≤ 2 ^ 96 - 1 := by
      rw [Int.abs_eq_natAbs]
      omega
    exact_mod_cast this
  have hone : (1 : ℚ) ≤ 10 ^ a.scale := one_le_pow₀ (by norm_num)
  rw [toRat_eq, abs_div, abs_of_pos (pow_ten_pos' _)]
  exact (div_le_self (abs_nonneg _) hone).trans hcoefficient

theorem inRange_toRat (a : Decimal) : InRange a.toRat := by
  have := abs_toRat_lt a
  unfold InRange reach
  linarith

theorem toRat_ofUInt32 (n : UInt32) : (ofUInt32 n).toRat = n.toNat :=
  toRat_ofNat _ _

theorem toRat_nonneg_ofUInt32 (n : UInt32) : 0 ≤ (ofUInt32 n).toRat := by
  rw [toRat_ofUInt32]
  positivity

-- ================================================== finding the amount

/-- What an operation whose exact result is `v` has to answer. -/
def Rounds (v : ℚ) : Option Decimal → Prop
  | some a => InRange v ∧ a.toRat = nearest v
  | none => ¬InRange v

/-- An amount answers for its own value. -/
theorem rounds_self {v : ℚ} {a : Decimal} (h : a.toRat = v) :
    Rounds v (some a) := by
  subst h
  exact ⟨inRange_toRat a, (nearest_toRat a).symm⟩

/-- A coefficient that needs no rounding settles as it stands. Without a
fraction digit to give up it settles only if it is in range. -/
theorem settle_exact {v : ℚ} {n : ℤ} {g : ℕ} (hg : g ≤ maxScale)
    (hv : v = n / 10 ^ g) (h : n.natAbs < limit ∨ g = 0) :
    Rounds v (settle n g) := by
  by_cases hn : n.natAbs < limit
  · rw [settle, dif_pos ⟨hn, hg⟩]
    refine rounds_self ?_
    rw [toRat_of, hv]
  · obtain rfl : g = 0 := h.resolve_left hn
    rw [settle, dif_neg (fun hc => hn hc.1), if_pos rfl]
    rw [pow_zero, div_one] at hv
    rw [Rounds, hv, InRange, ← natAbs_nearest_lt_iff, Tie.nearest_intCast]
    exact hn

/-- Above the reach and below the limit everything is carried to the
limit, and a digit further up to the one point of the coarser grid that
lies there. -/
private theorem nearest_of_carry {x : ℚ} (hover : reach ≤ x * 10)
    (hlt : x * 10 < 2 ^ 96) :
    Tie.toEven.nearest x = 7922816251426433759354395034
      ∧ Tie.toEven.nearest (x * 10) = 2 ^ 96 := by
  unfold reach at hover
  constructor
  · refine Tie.nearest_eq_of_abs_lt _ ?_
    rw [abs_lt]
    push_cast
    constructor <;> linarith
  · have hup := Tie.toEven.nearest_mono
      (show x * 10 ≤ ((2 ^ 96 : ℤ) : ℚ) by push_cast; exact hlt.le)
    rw [Tie.nearest_intCast] at hup
    have hlow : ¬(Tie.toEven.nearest (x * 10)).natAbs < limit := by
      rw [natAbs_nearest_lt_iff, not_lt]
      exact le_trans (by unfold reach; exact hover) (le_abs_self _)
    have hfloor : 0 ≤ ⌊x * 10⌋ := by
      rw [Int.floor_nonneg]
      linarith
    have := Tie.toEven.floor_le_nearest (x * 10)
    unfold limit at hlow
    omega

/-- After a carry the digit that is given up is rounded as the exact
value would have been. -/
private theorem quotient_of_carry {x : ℚ} (hover : reach ≤ |x| * 10)
    (hlt : |x| * 10 < 2 ^ 96) :
    quotient .toEven (Tie.toEven.nearest (x * 10)) 10
      = Tie.toEven.nearest x := by
  obtain ⟨hshort, hlong⟩ := nearest_of_carry hover hlt
  have hpoint : quotient .toEven (2 ^ 96) 10
      = 7922816251426433759354395034 := by decide
  have hpoint' : quotient .toEven (-2 ^ 96) 10
      = -7922816251426433759354395034 := by decide
  rcases abs_cases x with ⟨hx, -⟩ | ⟨hx, -⟩
  · rw [hx] at hshort hlong
    rw [hshort, hlong, hpoint]
  · rw [hx] at hshort hlong
    rw [Tie.nearest_neg] at hshort
    rw [neg_mul, Tie.nearest_neg] at hlong
    rw [neg_eq_iff_eq_neg.1 hshort, neg_eq_iff_eq_neg.1 hlong, hpoint']

/-- A coefficient rounded in the last digit that there is room for
settles on the nearest amount, also where rounding carries it to the
limit. -/
theorem settle_rounds {v : ℚ} {g : ℕ} (hg : g ≤ maxScale)
    (hlt : |v| * 10 ^ g < 2 ^ 96)
    (hmax : g = maxScale ∨ reach ≤ |v| * 10 ^ (g + 1)) :
    Rounds v (settle (Tie.toEven.nearest (v * 10 ^ g)) g) := by
  have habs : ∀ k : ℕ, |v * 10 ^ k| = |v| * 10 ^ k := fun k => by
    rw [abs_mul, abs_of_pos (pow_ten_pos' k)]
  have hrange : ∀ k : ℕ, |v| * 10 ^ k < reach → InRange v := fun k h =>
    lt_of_le_of_lt (le_mul_of_one_le_right (abs_nonneg v)
      (one_le_pow₀ (by norm_num))) h
  by_cases hn : (Tie.toEven.nearest (v * 10 ^ g)).natAbs < limit
  · have hfits : |v| * 10 ^ g < reach := by
      rw [← habs]
      exact (natAbs_nearest_lt_iff _).1 hn
    rw [settle, dif_pos ⟨hn, hg⟩]
    refine ⟨hrange g hfits, ?_⟩
    rw [toRat_of, nearest, digitsFor_eq hg hfits hmax]
  · have hover : reach ≤ |v| * 10 ^ g := by
      rw [← habs]
      exact not_lt.1 fun h => hn ((natAbs_nearest_lt_iff _).2 h)
    rw [settle, dif_neg (fun hc => hn hc.1)]
    cases g with
    | zero =>
        rw [if_pos rfl]
        rw [pow_zero, mul_one] at hover
        exact not_lt.2 hover
    | succ g =>
        -- the carry: one digit less, which is where the grid of `v` is
        have hover' : reach ≤ |v * 10 ^ g| * 10 := by
          rwa [habs, mul_assoc, ← pow_succ]
        have hlt' : |v * 10 ^ g| * 10 < 2 ^ 96 := by
          rwa [habs, mul_assoc, ← pow_succ]
        have hround := quotient_of_carry hover' hlt'
        rw [mul_assoc, ← pow_succ] at hround
        have hfits : |v| * 10 ^ g < reach := by
          rw [habs] at hlt'
          unfold reach
          linarith
        have hin : (Tie.toEven.nearest (v * 10 ^ g)).natAbs < limit := by
          rw [natAbs_nearest_lt_iff, habs]
          exact hfits
        have hg' : g ≤ maxScale := by omega
        rw [if_neg (Nat.succ_ne_zero g)]
        simp only [hround, Nat.add_sub_cancel]
        rw [dif_pos ⟨hin, hg'⟩]
        refine ⟨hrange g hfits, ?_⟩
        rw [toRat_of, nearest, digitsFor_eq hg' hfits (Or.inr hover)]

-- ============================================================ what is cut

/-- A scale that is lowered by digits cut from the coefficient. -/
theorem div_pow_mul_pow_sub (x : ℚ) {k s : ℕ} (h : k ≤ s) :
    x / 10 ^ s * 10 ^ (s - k) = x / 10 ^ k := by
  have hsplit : (10 : ℚ) ^ s = 10 ^ k * 10 ^ (s - k) := by
    rw [← pow_add, Nat.add_sub_cancel' h]
  have := (pow_ten_pos' k).ne'
  have := (pow_ten_pos' (s - k)).ne'
  rw [hsplit]
  field_simp

/-- Whole digits fit where the exact quotient does. -/
theorem natAbs_div_pow_lt_iff (n : ℤ) (k : ℕ) :
    n.natAbs / 10 ^ k < limit ↔ |(n : ℚ) / 10 ^ k| < 2 ^ 96 := by
  have hmagnitude : |(n : ℚ)| = n.natAbs := by
    rw [Nat.cast_natAbs, Int.cast_abs]
  rw [Nat.div_lt_iff_lt_mul (Nat.pow_pos (by norm_num)), abs_div,
    abs_of_pos (pow_ten_pos' k), div_lt_iff₀ (pow_ten_pos' k),
    hmagnitude, limit]
  exact_mod_cast Iff.rfl

/-- No number of digits is enough to cut only out of range. -/
theorem not_inRange_of_surplus_eq_none {n : ℤ} {s : ℕ}
    (h : surplus n s = none) : ¬InRange ((n : ℚ) / 10 ^ s) := by
  rw [surplus, List.find?_range_eq_none] at h
  have h := h s (Nat.lt_succ_self s)
  simp only [Bool.not_eq_true', Bool.and_eq_false_iff,
    decide_eq_false_iff_not, natAbs_div_pow_lt_iff] at h
  have hlarge := h.resolve_left (by omega)
  rw [InRange, not_lt, reach]
  linarith

/-- What is cut is enough, and one digit less would not be. -/
theorem surplus_eq_some {n : ℤ} {s k : ℕ} (h : surplus n s = some k) :
    k ≤ s ∧ s ≤ maxScale + k ∧ |(n : ℚ) / 10 ^ k| < 2 ^ 96
      ∧ ∀ j < k, maxScale + j < s ∨ 2 ^ 96 ≤ |(n : ℚ) / 10 ^ j| := by
  rw [surplus, List.find?_range_eq_some] at h
  obtain ⟨hfits, hmem, hleast⟩ := h
  rw [List.mem_range] at hmem
  simp only [Bool.and_eq_true, decide_eq_true_eq,
    natAbs_div_pow_lt_iff] at hfits
  refine ⟨by omega, hfits.1, hfits.2, fun j hj => ?_⟩
  have h := hleast j hj
  simp only [Bool.not_eq_true', Bool.and_eq_false_iff,
    decide_eq_false_iff_not, natAbs_div_pow_lt_iff, not_le, not_lt] at h
  exact h

/-- `fit` answers for the exact result `n / 10 ^ s`. -/
theorem fit_rounds (n : ℤ) (s : ℕ) :
    Rounds ((n : ℚ) / 10 ^ s) (fit n s) := by
  unfold fit
  cases hk : surplus n s with
  | none => exact not_inRange_of_surplus_eq_none hk
  | some k =>
      obtain ⟨hks, hscale, hfits, hleast⟩ := surplus_eq_some hk
      have hscaled : ∀ j ≤ s, |(n : ℚ) / 10 ^ s| * 10 ^ (s - j)
          = |(n : ℚ) / 10 ^ j| := fun j hj => by
        rw [← div_pow_mul_pow_sub _ hj, abs_mul,
          abs_of_pos (pow_ten_pos' (s - j))]
      have hround : quotient .toEven n (10 ^ k)
          = Tie.toEven.nearest ((n : ℚ) / 10 ^ s * 10 ^ (s - k)) := by
        rw [quotient_eq_nearest _ _ (Nat.pow_pos (by norm_num)),
          div_pow_mul_pow_sub _ hks]
        push_cast
        rfl
      show Rounds _ (settle (quotient .toEven n (10 ^ k)) (s - k))
      rw [hround]
      cases k with
      | zero =>
          rw [div_pow_mul_pow_sub _ hks, pow_zero, div_one,
            Tie.nearest_intCast]
          refine settle_exact (by omega) rfl (Or.inl ?_)
          have := (natAbs_div_pow_lt_iff n 0).2 hfits
          simpa using this
      | succ k =>
          refine settle_rounds (by omega) ?_ ?_
          · rw [hscaled _ hks]
            exact hfits
          · refine (hleast k (Nat.lt_succ_self k)).imp
              (fun h => by omega) fun h => ?_
            have hstep : s - (k + 1) + 1 = s - k := by omega
            rw [hstep, hscaled k (by omega), reach]
            linarith

end Payroll.Decimal
