/-
Sums in another order. Addition of amounts does not associate: it
rounds, and it keeps the spelling of the operand that is not zero. Two
kinds of amounts can be summed in any order all the same.

Whole amounts without a sign are natural numbers. Their sum is that of
the numbers if it is below the limit and a fault if it is not
(`sum_isNat`), and neither depends on the order.

Amounts of a ledger whose total is small enough are summed exactly, so
the value of the sum is the total. Its scale is the largest among the
amounts that are not zero (`places_add`), so the sum is spelled alike
in every order, unless it is zero: then it is spelled as the last of
the zeros (`sum_eqUpToZero`).
-/
import Payroll.Proofs.Alike
import Payroll.Proofs.Decimal.Ledger

namespace Payroll.Decimal

variable {a b c : Decimal}

-- ================================================================== zeros

/-- Amounts that differ in the spelling of a zero at most. -/
def EqUpToZero (w w' : Decimal) : Prop :=
  w = w' ∨ w.isZero = true ∧ w'.isZero = true

theorem sub_of_isZero (hb : b.isZero = true) :
    a.sub b = .ok (if a.isZero then b else a) := by
  unfold sub sub?
  rw [if_pos hb]
  rfl

/-- What is taken away from a zero does not see how it is spelled. -/
theorem sub_eq_of_isZero {a a' : Decimal} (ha : a.isZero = true)
    (ha' : a'.isZero = true) (d : Decimal) : a.sub d = a'.sub d := by
  unfold sub sub? add?
  simp only [ha, ha', if_true]

variable {w w' : Decimal}

/-- A zero leaves no trace in what it is taken away from. -/
theorem EqUpToZero.sub_eq (h : EqUpToZero w w')
    (ha : a.isZero = false) : a.sub w = a.sub w' := by
  rcases h with rfl | ⟨hw, hw'⟩
  · rfl
  · rw [sub_of_isZero hw, sub_of_isZero hw', ha]
    rfl

/-- Not even where it is taken away from zero, if something is taken
away after it. -/
theorem EqUpToZero.sub_sub {β : Type} {S : β → β → Prop}
    {K K' : Decimal → Except Failure β} (h : EqUpToZero w w')
    (a d : Decimal) (hK : ∀ net, Alike S (K net) (K' net)) :
    Alike S
      (do
        let b ← (liftM (a.sub w) : Except Failure Decimal)
        let net ← (liftM (b.sub d) : Except Failure Decimal)
        K net)
      (do
        let b ← (liftM (a.sub w') : Except Failure Decimal)
        let net ← (liftM (b.sub d) : Except Failure Decimal)
        K' net) := by
  rcases h with rfl | ⟨hw, hw'⟩
  · exact Alike.bind_same fun b _ => Alike.bind_same fun net _ => hK net
  · rw [sub_of_isZero hw, sub_of_isZero hw', liftM_ok, liftM_ok, ok_bind,
      ok_bind]
    split
    · rw [sub_eq_of_isZero hw hw']
      exact Alike.bind_same fun net _ => hK net
    · exact Alike.bind_same fun net _ => hK net

theorem EqUpToZero.normalize_eq (h : EqUpToZero w w') :
    w.normalize = w'.normalize := by
  rcases h with rfl | ⟨hw, hw'⟩
  · rfl
  · rw [normalize, normalize, if_pos hw, if_pos hw']

-- ================================================================ results

/-- A result that has room is given as it is. -/
theorem fit_of_lt {n : ℤ} {s : ℕ} (hn : n.natAbs < limit)
    (hs : s ≤ maxScale) : fit n s = some (of n s hn hs) := by
  have hsurplus : surplus n s = some 0 := by
    unfold surplus
    rw [List.range_succ_eq_map, List.find?_cons_of_pos]
    simp [hn, hs]
  have hself : quotient .toEven n (10 ^ 0) = n := by
    simp [quotient]
  simp only [fit, hsurplus, hself, settle, Nat.sub_zero, hn, hs, and_self,
    dite_true]

/-- A whole number that is too large has no amount. -/
theorem fit_eq_none {n : ℤ} (hn : limit ≤ n.natAbs) : fit n 0 = none := by
  have hsurplus : surplus n 0 = none := by
    unfold surplus
    simp [List.range_succ, hn]
  rw [fit, hsurplus]

-- ========================================================== whole amounts

/-- A natural number as an amount, if there is room for it. -/
def ofNat? (n : ℕ) : Option Decimal :=
  if h : n < limit then some (ofNat n h) else none

/-- An amount that is a natural number, spelled as one. -/
def IsNat (a : Decimal) : Prop := a.negative = false ∧ a.scale = 0

theorem IsNat.ofNat?_magnitude (h : a.IsNat) :
    ofNat? a.magnitude = some a := by
  obtain ⟨hnegative, hscale⟩ := h
  unfold ofNat?
  rw [dif_pos a.magnitude_lt]
  cases a
  simp_all [ofNat]

theorem fit_natCast (n : ℕ) : fit n 0 = ofNat? n := by
  have habs : (n : ℤ).natAbs = n := Int.natAbs_natCast n
  unfold ofNat?
  split
  · rename_i hlt
    rw [fit_of_lt (by rwa [habs]) (Nat.zero_le _)]
    simp [of, ofNat]
  · rename_i hge
    exact fit_eq_none (by rw [habs]; omega)

/-- Natural numbers are added as such. -/
theorem add_ofNat {n : ℕ} (hn : n < limit) (hb : b.IsNat) :
    (ofNat n hn).add b = orFault .additionOverflow
      (ofNat? (n + b.magnitude)) := by
  have hself := hb.ofNat?_magnitude
  obtain ⟨hnegative, hscale⟩ := hb
  unfold add add?
  congr 1
  split
  · rename_i hzero
    have : n = 0 := by simpa [isZero, ofNat] using hzero
    rw [this, Nat.zero_add, hself]
  · split
    · rename_i hzero
      have : b.magnitude = 0 := by simpa [isZero] using hzero
      rw [this, Nat.add_zero, ofNat?, dif_pos hn]
    · have hsum : (ofNat n hn).coefficient
          * 10 ^ (max (ofNat n hn).scale b.scale - (ofNat n hn).scale)
          + b.coefficient * 10 ^ (max (ofNat n hn).scale b.scale - b.scale)
          = ((n + b.magnitude : ℕ) : ℤ) := by
        simp [coefficient, ofNat, hnegative, hscale]
      have hmax : max (ofNat n hn).scale b.scale = 0 := by
        simp [ofNat, hscale]
      simp only
      rw [hsum, hmax, fit_natCast]

theorem foldlM_add_ofNat {l : List Decimal} (hl : ∀ a ∈ l, a.IsNat)
    {n : ℕ} (hn : n < limit) :
    l.foldlM add (ofNat n hn) = orFault .additionOverflow
      (ofNat? (n + (l.map magnitude).sum)) := by
  induction l generalizing n with
  | nil =>
      rw [List.map_nil, List.sum_nil, Nat.add_zero, ofNat?, dif_pos hn]
      rfl
  | cons a l ih =>
      obtain ⟨ha, hrest⟩ := List.forall_mem_cons.1 hl
      rw [List.foldlM_cons, add_ofNat hn ha, List.map_cons, List.sum_cons,
        ← Nat.add_assoc]
      by_cases hlt : n + a.magnitude < limit
      · rw [ofNat?, dif_pos hlt]
        exact ih hrest hlt
      · have hge : ¬n + a.magnitude + (l.map magnitude).sum < limit := by
          omega
        rw [ofNat?, dif_neg hlt, ofNat?, dif_neg hge]
        rfl

/-- Natural numbers are summed as such. -/
theorem sum_isNat {l : List Decimal} (hl : ∀ a ∈ l, a.IsNat) :
    sum l = orFault .additionOverflow (ofNat? (l.map magnitude).sum) := by
  have h := foldlM_add_ofNat hl (n := 0) (by decide)
  rwa [Nat.zero_add] at h

theorem sum_isNat_perm {l l' : List Decimal} (hl : ∀ a ∈ l, a.IsNat)
    (h : l.Perm l') : sum l = sum l' := by
  have hl' : ∀ a ∈ l', a.IsNat := fun a ha => hl a (h.mem_iff.2 ha)
  rw [sum_isNat hl, sum_isNat hl', (h.map magnitude).sum_eq]

/-- The floor of an amount without a sign is a natural number. -/
theorem isNat_floor (h : a.negative = false) : a.floor.IsNat := by
  unfold floor
  split
  · exact ⟨h, rfl⟩
  · refine ⟨?_, rfl⟩
    have hnonneg : 0 ≤ a.coefficient := by simp [coefficient, h]
    have := Int.ediv_nonneg hnonneg (Int.natCast_nonneg (10 ^ a.scale))
    simpa [of] using this

theorem isNat_ceil (h : a.negative = false) : a.ceil.IsNat := by
  have hneg : (-a).negative = true := by
    show (!a.negative) = true
    rw [h]
    rfl
  refine ⟨?_, ?_⟩
  · show (!(-a).floor.negative) = false
    rw [Bool.not_eq_false']
    unfold floor
    split
    · exact hneg
    · rename_i hfraction
      have hmagnitude : (-a).magnitude ≠ 0 := by
        intro hzero
        rw [hzero, Nat.zero_mod] at hfraction
        exact hfraction rfl
      have hlt : (-a).coefficient < 0 := by
        rw [Decimal.coefficient, if_pos hneg]
        omega
      simpa [of] using Int.ediv_neg_of_neg_of_pos hlt
        (Int.natCast_pos.2 (Nat.pow_pos (n := (-a).scale) (by decide : 0 < 10)))
  · show (-a).floor.scale = 0
    unfold floor
    split <;> rfl

-- ========================================================= ledger amounts

theorem negative_iff (h : a.magnitude ≠ 0) :
    a.negative = true ↔ a.coefficient < 0 := by
  unfold coefficient
  cases a.negative with
  | false => simp
  | true =>
      simp only [if_true, true_iff]
      omega

/-- An amount that is not zero is known by its value and its scale. -/
theorem eq_of_toRat_of_scale (hvalue : a.toRat = b.toRat)
    (hscale : a.scale = b.scale) (hzero : a.isZero = false) : a = b := by
  have hcoefficient : a.coefficient = b.coefficient := by
    rw [toRat_eq, toRat_eq, hscale,
      div_left_inj' (pow_ten_pos' b.scale).ne'] at hvalue
    exact_mod_cast hvalue
  have hmagnitude : a.magnitude = b.magnitude := by
    rw [← natAbs_coefficient a, hcoefficient, natAbs_coefficient]
  have hpos : a.magnitude ≠ 0 := by simpa [isZero] using hzero
  have hnegative : a.negative = b.negative := by
    rw [Bool.eq_iff_iff, negative_iff hpos,
      negative_iff (hmagnitude ▸ hpos), hcoefficient]
  cases a
  cases b
  simp_all

/-- The scale of an amount as far as a sum can tell. -/
def places (a : Decimal) : ℕ := if a.isZero then 0 else a.scale

theorem toRat_mul_pow {s : ℕ} (h : a.scale ≤ s) :
    a.toRat * 10 ^ s = (a.coefficient * 10 ^ (s - a.scale) : ℤ) := by
  have := (pow_ten_pos' a.scale).ne'
  have hsplit : (10 : ℚ) ^ s = 10 ^ a.scale * 10 ^ (s - a.scale) := by
    rw [← pow_add, Nat.add_sub_cancel' h]
  rw [toRat_eq, hsplit]
  push_cast
  field_simp

/-- Two amounts added at the larger of their scales. -/
theorem aligned_eq (a b : Decimal) :
    ((a.coefficient * 10 ^ (max a.scale b.scale - a.scale)
      + b.coefficient * 10 ^ (max a.scale b.scale - b.scale) : ℤ) : ℚ)
      = (a.toRat + b.toRat) * 10 ^ max a.scale b.scale := by
  rw [add_mul, toRat_mul_pow (le_max_left _ _),
    toRat_mul_pow (le_max_right _ _)]
  push_cast
  rfl

/-- There is room for what is not too large. -/
theorem pos_and_lt_limit {n : ℤ} {v : ℚ} {s : ℕ} (hs : s ≤ 4)
    (hn : (n : ℚ) = v * 10 ^ s) (hpos : 0 < v) (hle : v ≤ 10 ^ 23) :
    0 < n ∧ n.natAbs < limit := by
  have hpow : (10 : ℚ) ^ s ≤ 10 ^ 4 := pow_le_pow_right₀ (by norm_num) hs
  have hnpos : (0 : ℚ) < n := by
    rw [hn]
    positivity
  have hnle : (n : ℚ) ≤ 10 ^ 27 := by
    calc (n : ℚ) = v * 10 ^ s := hn
      _ ≤ 10 ^ 23 * 10 ^ 4 := by gcongr
      _ = 10 ^ 27 := by norm_num
  have hpos' : 0 < n := by exact_mod_cast hnpos
  have hle' : n ≤ 10 ^ 27 := by exact_mod_cast hnle
  refine ⟨hpos', ?_⟩
  unfold limit
  omega

/-- A sum with room for all digits has the larger scale. -/
theorem places_add (ha : 0 ≤ a.toRat) (hb : 0 ≤ b.toRat)
    (hsa : a.scale ≤ 4) (hsb : b.scale ≤ 4)
    (hle : a.toRat + b.toRat ≤ 10 ^ 23) (h : a.add b = .ok c) :
    c.places = max a.places b.places ∧ c.scale ≤ 4 := by
  unfold add at h
  rw [orFault_eq_ok] at h
  unfold add? at h
  split at h
  · rename_i hzero
    cases h
    simp [places, hzero, hsb]
  · rename_i hza
    split at h
    · rename_i hzero
      cases h
      simp [places, hzero, hsa]
    · rename_i hzb
      simp only at h
      rw [Bool.not_eq_true] at hza hzb
      have hmax : max a.scale b.scale ≤ 4 := max_le hsa hsb
      have hpos : 0 < a.toRat := by
        refine ha.lt_of_ne fun heq => ?_
        rw [isZero_iff.2 heq.symm] at hza
        cases hza
      obtain ⟨hnpos, hlt⟩ :=
        pos_and_lt_limit hmax (aligned_eq a b) (by linarith) hle
      generalize a.coefficient * 10 ^ (max a.scale b.scale - a.scale)
        + b.coefficient * 10 ^ (max a.scale b.scale - b.scale) = n
        at h hnpos hlt
      rw [fit_of_lt hlt (hmax.trans (by decide))] at h
      cases h
      have hzc : (of n (max a.scale b.scale) hlt
          (hmax.trans (by decide))).isZero = false := by
        simp only [isZero, of, beq_eq_false_iff_ne]
        omega
      refine ⟨?_, hmax⟩
      simp only [places, hza, hzb, hzc, Bool.false_eq_true, if_false]
      rfl

/-- The largest scale among amounts, as far as a sum can tell. -/
def maxPlaces (l : List Decimal) : ℕ := (l.map places).foldr max 0

theorem maxPlaces_perm {l l' : List Decimal} (h : l.Perm l') :
    maxPlaces l = maxPlaces l' :=
  (h.map places).foldr_eq 0

theorem foldlM_add_places {l : List Decimal} (hl : Payable l)
    (hscale : ∀ b ∈ l, b.scale ≤ 4) (ha : Held a) (hsa : a.scale ≤ 4)
    (hle : a.toRat + total l ≤ 10 ^ 23)
    (h : l.foldlM add a = .ok c) :
    c.places = max a.places (maxPlaces l) := by
  induction l generalizing a with
  | nil =>
      cases h
      simp [maxPlaces]
  | cons b l ih =>
      obtain ⟨hsb, hrest⟩ := List.forall_mem_cons.1 hscale
      have hb := hl b List.mem_cons_self
      have htotal := hl.tail.nonneg
      rw [total_cons] at hle
      obtain ⟨a', hab, hvalue, ha'⟩ := ha.exists_add hb (by linarith)
      obtain ⟨hplaces, hsa'⟩ := places_add ha.nonneg hb.nonneg hsa hsb
        (by linarith) hab
      rw [List.foldlM_cons, hab] at h
      rw [ih hl.tail hrest ha' hsa' (by linarith) h, hplaces, max_assoc]
      rfl

/-- Amounts of a ledger are summed alike in every order, but for the
spelling of a zero. -/
theorem sum_eqUpToZero {l l' : List Decimal} (hl : Payable l)
    (hscale : ∀ b ∈ l, b.scale ≤ 4) (hle : total l ≤ 10 ^ 23)
    (h : l.Perm l') : Alike EqUpToZero (sum l) (sum l') := by
  have hl' : Payable l' := fun b hb => hl b (h.mem_iff.2 hb)
  have htotal := total_perm h
  obtain ⟨c, hc, hvalue, -⟩ := hl.exists_sum hle
  obtain ⟨c', hc', hvalue', -⟩ := hl'.exists_sum (htotal ▸ hle)
  have hzero : zero.toRat + total l ≤ 10 ^ 23 := by
    rwa [toRat_zero, zero_add]
  have hplaces := foldlM_add_places hl hscale held_zero (by decide) hzero hc
  have hplaces' := foldlM_add_places hl'
    (fun b hb => hscale b (h.mem_iff.2 hb)) held_zero (by decide)
    (htotal ▸ hzero) hc'
  rw [← maxPlaces_perm h, ← hplaces] at hplaces'
  rw [← htotal, ← hvalue] at hvalue'
  rw [hc, hc']
  cases hz : c.isZero with
  | true =>
      refine .ok (.inr ⟨hz, ?_⟩)
      rw [isZero_iff, hvalue']
      exact isZero_iff.1 hz
  | false =>
      have hz' : c'.isZero = false := by
        rw [Bool.eq_false_iff] at hz ⊢
        rwa [ne_eq, isZero_iff, hvalue', ← isZero_iff]
      simp only [places, hz, hz', Bool.false_eq_true, if_false] at hplaces'
      exact .ok (.inl (eq_of_toRat_of_scale hvalue'.symm hplaces'.symm hz))

-- ================================================ what rounding can add

/-- Rounding to an integer doubles a value at most. -/
theorem Tie.nearest_le_two_mul (tie : Tie) {x : ℚ} (hx : 0 ≤ x) :
    (tie.nearest x : ℚ) ≤ 2 * x := by
  rcases lt_or_ge x (1 / 2) with hlt | hge
  · have hzero : tie.nearest x = 0 := by
      refine tie.nearest_eq_of_abs_lt ?_
      rw [Int.cast_zero, sub_zero, abs_of_nonneg hx]
      exact hlt
    rw [hzero, Int.cast_zero]
    linarith
  · have := (abs_le.1 (tie.abs_nearest_sub_le x)).2
    linarith

theorem nearest_le_two_mul {v : ℚ} (hv : 0 ≤ v) : nearest v ≤ 2 * v := by
  have hpow := pow_ten_pos' (digitsFor v)
  rw [nearest, div_le_iff₀ hpow, mul_assoc]
  exact Tie.toEven.nearest_le_two_mul (mul_nonneg hv hpow.le)

-- ============================================================ no minus zero

theorem negative_of_pos (h : 0 < a.toRat) : a.negative = false := by
  rw [Bool.eq_false_iff]
  intro hnegative
  have hle : (a.coefficient : ℚ) ≤ 0 := by
    rw [coefficient, if_pos hnegative]
    exact_mod_cast Int.neg_nonpos_of_nonneg (Int.natCast_nonneg _)
  rw [toRat_eq] at h
  linarith [div_nonpos_of_nonpos_of_nonneg hle (pow_ten_pos' a.scale).le]

/-- A result that is brought into range has a sign only if it is below
zero. -/
theorem negative_of_fit {n : ℤ} {s : ℕ} (h : fit n s = some c)
    (hc : 0 ≤ c.toRat) : c.negative = false := by
  have hsettle : ∀ {m : ℤ} {k : ℕ}, settle m k = some c →
      c.negative = decide (c.coefficient < 0) := by
    intro m k hm
    unfold settle at hm
    split at hm
    · cases hm
      rw [coefficient_of]
      rfl
    · split at hm
      · cases hm
      · simp only at hm
        split at hm
        · cases hm
          rw [coefficient_of]
          rfl
        · cases hm
  have hsign : c.negative = decide (c.coefficient < 0) := by
    unfold fit at h
    split at h
    · cases h
    · exact hsettle h
  rw [hsign, decide_eq_false_iff_not, not_lt]
  rw [toRat_eq, le_div_iff₀ (pow_ten_pos' _), zero_mul] at hc
  exact_mod_cast hc

/-- A product of amounts that are not negative has no sign, not even
where it is zero. -/
theorem negative_of_mul (ha : 0 ≤ a.toRat) (hb : 0 ≤ b.toRat)
    (h : a.mul b = .ok c) : c.negative = false := by
  have hc := toRat_mul_nonneg ha hb h
  rw [mul, orFault_eq_ok] at h
  unfold mul? at h
  simp only at h
  split at h
  · cases h
    rfl
  · rename_i hzero
    rw [Bool.or_eq_true, not_or, isZero_iff, isZero_iff] at hzero
    split at h
    · cases h
      rfl
    · obtain ⟨m, hm, hmc⟩ := Option.map_eq_some_iff.1 h
      have hsame : (a.negative != b.negative) = false := by
        rw [negative_of_pos (ha.lt_of_ne' hzero.1),
          negative_of_pos (hb.lt_of_ne' hzero.2)]
        rfl
      rw [hsame] at hmc
      have hvalue : m.toRat = c.toRat := by
        rw [← hmc]
        split
        · rfl
        · rw [toRat_signZero]
      have hm' := negative_of_fit hm (hvalue ▸ hc)
      rw [← hmc]
      split
      · exact hm'
      · unfold signZero
        split
        · rfl
        · exact hm'

end Payroll.Decimal

namespace Payroll.Rounding

open Decimal

theorem value_le_two_mul (r : Rounding) {v : ℚ} (hv : 0 ≤ v) :
    r.value v ≤ 2 * v := by
  have hpow := pow_ten_pos' r.places
  rw [value, div_le_iff₀ hpow, mul_assoc]
  exact Tie.awayFromZero.nearest_le_two_mul (mul_nonneg hv hpow.le)

end Payroll.Rounding
