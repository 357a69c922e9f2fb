/-
Amounts between amounts. `nearest` keeps the order and the range of
amounts has no holes, so a sum that lies between two sums that exist
exists itself, and lies between their results. No amount has to be
small and no sum exact for that: where the outer sums are rounded, the
inner one is rounded along with them.

Whole amounts need not be compared. They are rounded to no digit at
all, so their sums are exact or there is none (`toRat_sum_whole`).
-/
import Mathlib.Data.List.Forall2
import Payroll.Proofs.Decimal.Ledger
import Payroll.Proofs.Sequencing

namespace Payroll.Decimal

variable {a b c low low' high high' : Decimal}

-- ================================================================ order

/-- What lies between two values in range is in range. -/
theorem InRange.of_mem {u v w : ℚ} (hu : InRange u) (hw : InRange w)
    (huv : u ≤ v) (hvw : v ≤ w) : InRange v := by
  unfold InRange at *
  exact abs_lt.2
    ⟨(abs_lt.1 hu).1.trans_le huv, hvw.trans_lt (abs_lt.1 hw).2⟩

/-- An amount between two others. -/
structure Between (low a high : Decimal) : Prop where
  le : low.toRat ≤ a.toRat
  ge : a.toRat ≤ high.toRat

theorem Between.refl (a : Decimal) : Between a a a := ⟨le_rfl, le_rfl⟩

/-- Summands between the summands of two sums have a sum between
them. -/
theorem Between.exists_add {lowSum highSum : Decimal}
    (ha : Between low a high) (hb : Between low' b high')
    (hlow : low.add low' = .ok lowSum)
    (hhigh : high.add high' = .ok highSum) :
    ∃ sum, a.add b = .ok sum ∧ Between lowSum sum highSum := by
  have hle := add_le_add ha.le hb.le
  have hge := add_le_add ha.ge hb.ge
  have hrange := ((add?_rounds low low').inRange_of_ok hlow).of_mem
    ((add?_rounds high high').inRange_of_ok hhigh) hle hge
  obtain ⟨sum, hsum, hvalue⟩ :=
    (add?_rounds a b).exists_ok hrange .additionOverflow
  refine ⟨sum, hsum, ?_, ?_⟩
  · rw [hvalue, toRat_add hlow]
    exact nearest_mono hle
  · rw [hvalue, toRat_add hhigh]
    exact nearest_mono hge

/-- A difference of amounts that are not negative is an amount. -/
theorem exists_sub_of_nonneg (ha : 0 ≤ a.toRat) (hb : 0 ≤ b.toRat) :
    ∃ c, a.sub b = .ok c := by
  have hrange : InRange (a.toRat - b.toRat) :=
    (inRange_neg.2 (inRange_toRat b)).of_mem (inRange_toRat a)
      (by linarith) (by linarith)
  obtain ⟨c, hc, -⟩ :=
    (sub?_rounds a b).exists_ok hrange .subtractionOverflow
  exact ⟨c, hc⟩

-- ================================================================= sums

/-- Amounts that are nowhere above those of another list. -/
def Below : List Decimal → List Decimal → Prop :=
  List.Forall₂ fun a b => a.toRat ≤ b.toRat

/-- Lists whose values are made from one list are compared there. -/
theorem below_of_map {α : Type} {xs : List α} {l l' : List Decimal}
    {f g : α → ℚ} (hl : l.map toRat = xs.map f)
    (hl' : l'.map toRat = xs.map g) (h : ∀ x ∈ xs, f x ≤ g x) :
    Below l l' := by
  have hvalues : List.Forall₂ (· ≤ ·) (l.map toRat) (l'.map toRat) := by
    rw [hl, hl', List.forall₂_map_left_iff, List.forall₂_map_right_iff,
      List.forall₂_same]
    exact h
  rwa [List.forall₂_map_left_iff, List.forall₂_map_right_iff] at hvalues

theorem below_map {α : Type} {xs : List α} {f g : α → Decimal}
    (h : ∀ x ∈ xs, (f x).toRat ≤ (g x).toRat) :
    Below (xs.map f) (xs.map g) :=
  below_of_map (List.map_map) (List.map_map) h

theorem Below.total_le {l l' : List Decimal} (h : Below l l') :
    total l ≤ total l' := by
  induction h with
  | nil => exact le_rfl
  | cons hab _ ih =>
      rw [total_cons, total_cons]
      exact add_le_add hab ih

/-- A list between two lists that can be added up can be added up. -/
theorem Below.exists_foldlM_add {l lows highs : List Decimal}
    {lowSum highSum : Decimal} (hlows : Below lows l)
    (hhighs : Below l highs) (ha : Between low a high)
    (hlow : lows.foldlM add low = .ok lowSum)
    (hhigh : highs.foldlM add high = .ok highSum) :
    ∃ sum, l.foldlM add a = .ok sum ∧ Between lowSum sum highSum := by
  unfold Below at hlows hhighs
  induction hlows generalizing low a high highs with
  | nil =>
      cases hhighs
      cases hlow
      cases hhigh
      exact ⟨a, rfl, ha⟩
  | @cons lowHead b _ _ hle _ ih =>
      cases hhighs with
      | @cons _ highHead _ _ hge hhighs =>
          rw [List.foldlM_cons, bind_eq_ok] at hlow hhigh
          obtain ⟨low', hlowAdd, hlow⟩ := hlow
          obtain ⟨high', hhighAdd, hhigh⟩ := hhigh
          obtain ⟨a', hadd, ha'⟩ :=
            ha.exists_add ⟨hle, hge⟩ hlowAdd hhighAdd
          rw [List.foldlM_cons, hadd]
          exact ih hhighs ha' hlow hhigh

theorem Below.exists_sum {l lows highs : List Decimal}
    {lowSum highSum : Decimal} (hlows : Below lows l)
    (hhighs : Below l highs) (hlow : sum lows = .ok lowSum)
    (hhigh : sum highs = .ok highSum) :
    ∃ s, sum l = .ok s ∧ Between lowSum s highSum :=
  hlows.exists_foldlM_add hhighs (.refl zero) hlow hhigh

-- ======================================================== whole amounts

/-- A whole value is rounded to itself, however large. -/
theorem nearest_whole {v : ℚ} (h : Whole 0 v) : nearest v = v :=
  nearest_eq_of_le_digitsFor h (Nat.zero_le _)

theorem whole_ceil (a : Decimal) : Whole 0 a.ceil.toRat := by
  rw [toRat_ceil]
  exact whole_intCast 0 _

/-- A sum of whole amounts is exact. -/
theorem toRat_add_whole (h : a.add b = .ok c) (ha : Whole 0 a.toRat)
    (hb : Whole 0 b.toRat) : c.toRat = a.toRat + b.toRat := by
  rw [toRat_add h, nearest_whole (ha.add hb)]

theorem toRat_foldlM_add_whole {l : List Decimal}
    (hl : ∀ b ∈ l, Whole 0 b.toRat) (ha : Whole 0 a.toRat)
    (hsum : l.foldlM add a = .ok c) : c.toRat = a.toRat + total l := by
  induction l generalizing a with
  | nil =>
      cases hsum
      rw [total_nil, add_zero]
  | cons b l ih =>
      have hb := hl b List.mem_cons_self
      rw [List.foldlM_cons, bind_eq_ok] at hsum
      obtain ⟨a', hab, hsum⟩ := hsum
      have hrest := ih (fun b' hb' => hl b' (List.mem_cons_of_mem b hb'))
        (whole_add hab ha hb) hsum
      rw [hrest, toRat_add_whole hab ha hb, total_cons, add_assoc]

theorem toRat_sum_whole {l : List Decimal}
    (hl : ∀ b ∈ l, Whole 0 b.toRat) (hsum : sum l = .ok c) :
    c.toRat = total l ∧ Whole 0 c.toRat := by
  have h := toRat_foldlM_add_whole hl
    (by rw [toRat_zero]; exact whole_zero 0) hsum
  rw [toRat_zero, zero_add] at h
  exact ⟨h, whole_sum hl hsum⟩

/-- A whole amount added to one of a ledger leaves nothing to round
while the sum stays small. The ledger's amount may be as far below zero
as there are amounts: then the sum lies between it and zero and needs no
more digits than it has. -/
theorem toRat_add_of_lt (h : a.add b = .ok c) (ha : InLedger a.toRat)
    (hb : Whole 0 b.toRat) (hnonneg : 0 ≤ b.toRat)
    (hc : c.toRat < 10 ^ 20) : c.toRat = a.toRat + b.toRat := by
  rw [toRat_add h] at hc ⊢
  rcases lt_or_ge (a.toRat + b.toRat) 0 with hneg | hpos
  · obtain ⟨k, hk⟩ := hb
    rw [pow_zero, mul_one] at hk
    have hpow := pow_ten_pos' a.scale
    have hexact : a.toRat + b.toRat
        = ((a.coefficient + k * 10 ^ a.scale : ℤ) : ℚ) / 10 ^ a.scale := by
      rw [toRat_eq a, hk, eq_div_iff hpow.ne', add_mul,
        div_mul_cancel₀ _ hpow.ne']
      push_cast
      rfl
    have hraised : 0 ≤ k * 10 ^ a.scale := by
      have hk' : 0 ≤ k := by exact_mod_cast hk ▸ hnonneg
      positivity
    have hbelow : a.coefficient + k * 10 ^ a.scale < 0 := by
      rw [hexact, div_lt_iff₀ hpow, zero_mul] at hneg
      exact_mod_cast hneg
    have hdigits := a.magnitude_lt
    rw [← natAbs_coefficient a] at hdigits
    exact nearest_eq_self (by omega) a.scale_le hexact
  · have hlarge : nearest (10 ^ 20) = 10 ^ 20 :=
      nearest_whole ⟨10 ^ 20, by norm_num⟩
    have hlt : a.toRat + b.toRat < 10 ^ 20 := by
      by_contra hge
      rw [not_lt] at hge
      have hle := nearest_mono hge
      rw [hlarge] at hle
      linarith
    refine (ha.add (Whole.mono (Nat.zero_le 4) hb)).nearest_eq ?_
    rw [abs_of_nonneg hpos]
    linarith

end Payroll.Decimal
