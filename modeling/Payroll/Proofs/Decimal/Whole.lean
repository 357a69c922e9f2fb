/-
Whole units. A currency has a smallest unit, and an amount of money is
a whole number of them: `Whole places v` says that `v` is a multiple of
`10 ^ -places`.

Sums and differences of such values are of their kind again, products
add up the places. What matters for a calculation is that rounding
does not lead out of them, however large the value is
(`Whole.nearest`). A value with room for all of its places is kept as
it is; one without room is rounded to fewer places, and a multiple of
a larger unit is one of a smaller unit too.

The last section bounds what `nearest` does to any value: by half a
unit of the last place that there is room for, and never past an
amount.
-/
import Payroll.Proofs.Decimal.Value
import Mathlib.Algebra.Order.BigOperators.Group.List

namespace Payroll.Decimal

/-- A whole number of units of `10 ^ -places`. -/
def Whole (places : ℕ) (v : ℚ) : Prop := ∃ k : ℤ, v * 10 ^ places = k

variable {p q : ℕ} {u v : ℚ}

instance (places : ℕ) (v : ℚ) : Decidable (Whole places v) :=
  decidable_of_iff ((v * 10 ^ places).den = 1)
    ⟨fun h => ⟨(v * 10 ^ places).num, ((Rat.den_eq_one_iff _).1 h).symm⟩,
      fun ⟨k, hk⟩ => by rw [hk]; rfl⟩

theorem whole_intCast (places : ℕ) (n : ℤ) : Whole places n :=
  ⟨n * 10 ^ places, by push_cast; rfl⟩

theorem whole_zero (places : ℕ) : Whole places 0 := by
  simpa using whole_intCast places 0

theorem whole_div_pow (places : ℕ) (n : ℤ) :
    Whole places (n / 10 ^ places) :=
  ⟨n, div_mul_cancel₀ _ (pow_ten_pos' places).ne'⟩

theorem Whole.mono (hpq : p ≤ q) (h : Whole p v) : Whole q v := by
  obtain ⟨k, hk⟩ := h
  refine ⟨k * 10 ^ (q - p), ?_⟩
  rw [← Nat.add_sub_cancel' hpq, pow_add, ← mul_assoc, hk,
    Nat.add_sub_cancel_left]
  push_cast
  rfl

theorem Whole.add (hu : Whole p u) (hv : Whole p v) :
    Whole p (u + v) := by
  obtain ⟨k, hk⟩ := hu
  obtain ⟨l, hl⟩ := hv
  refine ⟨k + l, ?_⟩
  rw [add_mul, hk, hl]
  push_cast
  rfl

theorem Whole.neg (h : Whole p v) : Whole p (-v) := by
  obtain ⟨k, hk⟩ := h
  refine ⟨-k, ?_⟩
  rw [neg_mul, hk]
  push_cast
  rfl

theorem Whole.sub (hu : Whole p u) (hv : Whole p v) :
    Whole p (u - v) := by
  rw [sub_eq_add_neg]
  exact hu.add hv.neg

theorem Whole.mul (hu : Whole p u) (hv : Whole q v) :
    Whole (p + q) (u * v) := by
  obtain ⟨k, hk⟩ := hu
  obtain ⟨l, hl⟩ := hv
  refine ⟨k * l, ?_⟩
  rw [pow_add, mul_mul_mul_comm, hk, hl]
  push_cast
  rfl

theorem Whole.min (hu : Whole p u) (hv : Whole p v) :
    Whole p (min u v) := by
  rcases min_choice u v with h | h <;> rw [h] <;> assumption

theorem Whole.sum {l : List ℚ} (h : ∀ v ∈ l, Whole p v) :
    Whole p l.sum := by
  induction l with
  | nil => exact whole_zero p
  | cons v l ih =>
      rw [List.sum_cons]
      exact (h v List.mem_cons_self).add
        (ih fun w hw => h w (List.mem_cons_of_mem v hw))

-- ============================================================== rounding

/-- A value is kept with as many places as there is room for. -/
theorem nearest_eq_of_le_digitsFor (h : Whole p v)
    (hp : p ≤ digitsFor v) : nearest v = v := by
  obtain ⟨k, hk⟩ := h.mono hp
  rw [Decimal.nearest, hk, Tie.nearest_intCast, ← hk,
    mul_div_cancel_right₀ _ (pow_ten_pos' _).ne']

/-- A value is kept while its coefficient has no more than 28 digits. -/
theorem Whole.nearest_eq (h : Whole p v) (hp : p ≤ maxScale)
    (hle : |v| * 10 ^ p ≤ 10 ^ 28) : Decimal.nearest v = v :=
  nearest_eq_of_le_digitsFor h
    (le_digitsFor hp (hle.trans_lt (by norm_num [reach])))

/-- Rounding to amounts does not lead out of the whole units. -/
theorem Whole.nearest (h : Whole p v) : Whole p (nearest v) := by
  rcases le_total p (digitsFor v) with hp | hp
  · rwa [nearest_eq_of_le_digitsFor h hp]
  · exact (whole_div_pow _ _).mono hp

-- ======================================================= how far it moves

/-- A value with room for `g` places is moved by half a unit of the last
one at most. -/
theorem abs_nearest_sub_le {g : ℕ} (hg : g ≤ maxScale)
    (h : |v| * 10 ^ g < reach) :
    |nearest v - v| ≤ 1 / (2 * 10 ^ g) := by
  have hle := le_digitsFor hg h
  have hpos := pow_ten_pos' (digitsFor v)
  have hpow : (10 : ℚ) ^ g ≤ 10 ^ digitsFor v :=
    pow_le_pow_right₀ (by norm_num) hle
  have hmoved : |nearest v - v| * 10 ^ digitsFor v ≤ 1 / 2 := by
    rw [← abs_of_pos hpos, ← abs_mul, sub_mul, nearest,
      div_mul_cancel₀ _ hpos.ne']
    exact Tie.toEven.abs_nearest_sub_le _
  rw [le_div_iff₀ (by positivity)]
  calc |nearest v - v| * (2 * 10 ^ g)
      ≤ |nearest v - v| * (2 * 10 ^ digitsFor v) := by gcongr
    _ ≤ 1 := by linarith

/-- A value of 28 digits before the point is raised by one half at
most. -/
theorem nearest_le_add_half (hnonneg : 0 ≤ v) (hle : v ≤ 10 ^ 28) :
    nearest v ≤ v + 1 / 2 := by
  have hmoved : |nearest v - v| ≤ 1 / (2 * 10 ^ 0) := by
    refine abs_nearest_sub_le (Nat.zero_le _) ?_
    rw [abs_of_nonneg hnonneg, pow_zero, mul_one, reach]
    linarith
  rw [pow_zero, mul_one] at hmoved
  linarith [(abs_le.1 hmoved).2]

/-- Rounding never leads past an amount. -/
theorem nearest_le_natCast {m : ℕ} (hm : m < limit) (h : v ≤ m) :
    nearest v ≤ m := by
  have hself : nearest (m : ℚ) = m :=
    nearest_eq_self (n := m) (g := 0) (by simpa using hm) (by decide)
      (by simp)
  rw [← hself]
  exact nearest_mono h

theorem abs_nearest_le {m : ℕ} (hm : m < limit) (h : |v| ≤ m) :
    |nearest v| ≤ m := by
  obtain ⟨hlow, hhigh⟩ := abs_le.1 h
  have hneg := nearest_le_natCast hm (neg_le.1 hlow)
  rw [nearest_neg] at hneg
  exact abs_le.2 ⟨by linarith, nearest_le_natCast hm hhigh⟩

end Payroll.Decimal
