/-
Sizes that arithmetic keeps. An operation has no amount to answer with
only where its exact result is beyond all amounts. `Within S m a` says
that `a` is no larger than `m` where the condition `S` is kept; each
operation has one lemma that bounds its result by its operands and
excuses the fault where the condition is not kept.

Bounds are whole numbers, because those are amounts themselves:
rounding never leads past an amount, so a bound on the exact result is
one on the rounded result too, and no bound grows by being rounded.
-/
import Payroll.Proofs.Decimal.Ledger
import Payroll.Proofs.Endings

namespace Payroll.Decimal

variable {S : Prop} {a b : Decimal} {m n k : ℕ}

/-- An amount no larger than `m`, where `S` is kept. -/
def Within (S : Prop) (m : ℕ) (a : Decimal) : Prop := S → |a.toRat| ≤ m

theorem Within.mono (h : Within S m a) (hmn : m ≤ n) : Within S n a := by
  intro hS
  have : (m : ℚ) ≤ n := by exact_mod_cast hmn
  exact (h hS).trans this

theorem within_zero : Within S m zero := by
  intro
  rw [toRat_zero, abs_zero]
  exact Nat.cast_nonneg m

/-- An operation whose exact result is no larger than an amount can be
has a result no larger. -/
theorem Rounds.ends {v : ℚ} {o : Option Decimal} {f : Fault}
    (h : Rounds v o) (hf : f ≠ .divisionByZero) (hv : S → |v| ≤ m)
    (hm : S → m < limit) :
    Ends (Fault.Excused S) (Within S m) (orFault f o) := by
  cases o with
  | some c =>
      intro hS
      show |c.toRat| ≤ m
      rw [h.2]
      exact abs_nearest_le (hm hS) (hv hS)
  | none =>
      refine ⟨hf, fun hS => h ?_⟩
      have hlt : (m : ℚ) + 1 ≤ 2 ^ 96 := by
        exact_mod_cast Nat.succ_le_of_lt (hm hS)
      have := hv hS
      unfold InRange reach
      linarith

/-- Whoever looks whether there is a result finds one that the
operation would have answered with. -/
theorem mem_of_ends {E : Fault → Prop} {Q : Decimal → Prop}
    {o : Option Decimal} {f : Fault} (h : Ends E Q (orFault f o)) :
    ∀ a ∈ o, Q a := by
  rintro a ⟨⟩
  exact h

theorem Within.add (ha : Within S m a) (hb : Within S n b)
    (hk : m + n ≤ k := by decide) (hlt : k < limit := by decide) :
    Ends (Fault.Excused S) (Within S k) (a.add b) := by
  refine (add?_rounds a b).ends (by decide) (fun hS => ?_) fun _ => hlt
  have hk' : (m : ℚ) + n ≤ k := by exact_mod_cast hk
  have := abs_add_le a.toRat b.toRat
  linarith [ha hS, hb hS]

theorem Within.sub (ha : Within S m a) (hb : Within S n b)
    (hk : m + n ≤ k := by decide) (hlt : k < limit := by decide) :
    Ends (Fault.Excused S) (Within S k) (a.sub b) := by
  refine (sub?_rounds a b).ends (by decide) (fun hS => ?_) fun _ => hlt
  have hk' : (m : ℚ) + n ≤ k := by exact_mod_cast hk
  have := abs_sub a.toRat b.toRat
  linarith [ha hS, hb hS]

theorem Within.mul (ha : Within S m a) (hb : Within S n b)
    (hk : m * n ≤ k := by decide) (hlt : k < limit := by decide) :
    Ends (Fault.Excused S) (Within S k) (a.mul b) := by
  refine (mul?_rounds a b).ends (by decide) (fun hS => ?_) fun _ => hlt
  have hk' : (m : ℚ) * n ≤ k := by exact_mod_cast hk
  rw [abs_mul]
  exact (mul_le_mul (ha hS) (hb hS) (abs_nonneg _)
    (Nat.cast_nonneg m)).trans hk'

/-- A quotient is no larger than its numerator if the divisor is no
less than one. It is not a division by zero if the divisor is
positive. -/
theorem Within.div (ha : Within S m a) (hb : 0 < b.toRat)
    (hone : S → 1 ≤ b.toRat) (hlt : m < limit := by decide) :
    Ends (Fault.Excused S) (Within S m) (a.div b) := by
  rw [div_eq_orFault a hb.ne']
  refine (div?_rounds a hb.ne').ends (by decide) (fun hS => ?_)
    fun _ => hlt
  rw [abs_div, abs_of_pos hb]
  exact (div_le_self (abs_nonneg _) (hone hS)).trans (ha hS)

theorem ends_foldlM_add {l : List Decimal} (hl : ∀ b ∈ l, Within S m b)
    (ha : Within S n a) (hk : S → n + l.length * m ≤ k) (hlt : k < limit) :
    Ends (Fault.Excused S) (Within S k) (l.foldlM Decimal.add a) := by
  induction l generalizing a n with
  | nil =>
      intro hS
      have h := hk hS
      rw [List.length_nil, zero_mul, add_zero] at h
      exact ha.mono h hS
  | cons b l ih =>
      rw [List.foldlM_cons]
      have hsum : Ends (Fault.Excused S) (Within S (n + m)) (a.add b) := by
        refine (add?_rounds a b).ends (by decide) (fun hS => ?_)
          fun hS => ?_
        · push_cast
          have := abs_add_le a.toRat b.toRat
          linarith [ha hS, hl b List.mem_cons_self hS]
        · have h := hk hS
          rw [List.length_cons, add_mul, one_mul] at h
          omega
      refine hsum.bind fun c hc => ?_
      refine ih (fun b' hb' => hl b' (List.mem_cons_of_mem b hb')) hc
        fun hS => ?_
      have h := hk hS
      rw [List.length_cons, add_mul, one_mul] at h
      omega

/-- A sum is no larger than its largest amount as often as there are
amounts. -/
theorem ends_sum {l : List Decimal} (hl : ∀ b ∈ l, Within S m b)
    (hk : S → l.length * m ≤ k) (hlt : k < limit := by decide) :
    Ends (Fault.Excused S) (Within S k) (Decimal.sum l) :=
  ends_foldlM_add hl (n := 0) within_zero (by simpa using hk) hlt

-- ===================================================== rounding and choosing

/-- Rounding by a function that keeps the order and leaves whole numbers
as they are does not lead past a bound. -/
theorem Within.of_mono {f : ℚ → ℚ} {c : Decimal} (ha : Within S m a)
    (hf : Monotone f) (hwhole : ∀ z : ℤ, f z = z)
    (hc : c.toRat = f a.toRat) : Within S m c := by
  intro hS
  obtain ⟨hlow, hhigh⟩ := abs_le.1 (ha hS)
  have h₁ := hf hlow
  have h₂ := hf hhigh
  have hm := hwhole m
  have hm' := hwhole (-m)
  push_cast at hm hm'
  rw [hm'] at h₁
  rw [hm] at h₂
  rw [hc]
  exact abs_le.2 ⟨h₁, h₂⟩

theorem Within.floor (ha : Within S m a) : Within S m a.floor :=
  ha.of_mono (f := fun v => (⌊v⌋ : ℚ))
    (fun _ _ h => Int.cast_le.2 (Int.floor_le_floor h))
    (fun z => by simp) (toRat_floor a)

theorem Within.ceil (ha : Within S m a) : Within S m a.ceil :=
  ha.of_mono (f := fun v => (⌈v⌉ : ℚ))
    (fun _ _ h => Int.cast_le.2 (Int.ceil_le_ceil h))
    (fun z => by simp) (toRat_ceil a)

theorem Within.round (ha : Within S m a) (r : Rounding) :
    Within S m (r.round a) :=
  ha.of_mono r.value_mono r.value_intCast (r.toRat_round a)

theorem Within.min (ha : Within S m a) (hb : Within S m b) :
    Within S m (min a b) := by
  intro hS
  rw [toRat_min]
  exact abs_min_le_max_abs_abs.trans (max_le (ha hS) (hb hS))

end Payroll.Decimal
