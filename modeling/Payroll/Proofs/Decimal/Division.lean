/-
Division answers for the exact quotient. The state of the loop is a
dividend `n` at a scale `s`, and `v * 10 ^ s = n / d` is what every
round keeps, `v` being the exact quotient. A round brings down as many
digits as there is room for, so the digits found so far are always the
leading digits of `v`, and the loop ends only where the remainder is
zero or where `settle_rounds` applies.

Where it gives up, the quotient is out of range: either its digits no
longer fit while the scale is negative, or a round that brought the
scale up to zero left a quotient of more than 96 bits.
-/
import Payroll.Proofs.Decimal.Operations

namespace Payroll.Decimal

-- ============================================================== one round

/-- What has room is no more than what is brought down. -/
theorem le_room {q p : ℕ} {s : ℤ} (hp : 1 ≤ p) (hp' : p ≤ 9)
    (hs : s + p ≤ maxScale) (hq : q * 10 ^ p < limit) : p ≤ room q s := by
  have hmem : p ∈ [9, 8, 7, 6, 5, 4, 3, 2, 1] := by
    simp only [List.mem_cons, List.not_mem_nil, or_false]
    omega
  unfold room
  cases hf : [9, 8, 7, 6, 5, 4, 3, 2, 1].find? fun (p : ℕ) =>
      decide (s + (p : ℤ) ≤ maxScale) && decide (q * 10 ^ p < limit) with
  | none => exact absurd (List.find?_eq_none.1 hf p hmem) (by simp [hs, hq])
  | some b =>
      obtain ⟨-, front, back, hlist, hfront⟩ :=
        List.find?_eq_some_iff_append.1 hf
      have hsorted : [9, 8, 7, 6, 5, 4, 3, 2, 1].Pairwise (· ≥ ·) := by
        decide
      rw [hlist] at hmem hsorted
      rcases List.mem_append.1 hmem with h | h
      · have := hfront p h
        simp [hs, hq] at this
      · rcases List.mem_cons.1 h with rfl | h
        · exact le_rfl
        · exact (List.pairwise_cons.1
            (List.pairwise_append.1 hsorted).2.1).1 p h

/-- What is brought down has room. -/
theorem mul_pow_room_lt {q : ℕ} {s : ℤ} (h : room q s ≠ 0) :
    q * 10 ^ room q s < limit ∧ room q s ≤ 9 := by
  unfold room at h ⊢
  cases hf : [9, 8, 7, 6, 5, 4, 3, 2, 1].find? fun (p : ℕ) =>
      decide (s + (p : ℤ) ≤ maxScale) && decide (q * 10 ^ p < limit) with
  | none => simp [hf] at h
  | some p =>
      have hfits := List.find?_some hf
      have hmem := List.mem_of_find?_eq_some hf
      simp only [Bool.and_eq_true, decide_eq_true_eq] at hfits
      simp only [List.mem_cons, List.not_mem_nil, or_false] at hmem
      exact ⟨hfits.2, by show p ≤ 9; omega⟩

theorem natCast_limit : (limit : ℚ) = 2 ^ 96 := by
  unfold limit
  push_cast
  rfl

/-- Nothing from the limit on is in range. -/
theorem not_inRange_of_limit_le {v : ℚ} (h : (limit : ℚ) ≤ v) :
    ¬InRange v := by
  rw [natCast_limit] at h
  rw [InRange, not_lt, reach]
  linarith [le_abs_self v]

/-- The quotient found so far, one added, exceeds the dividend. -/
theorem div_lt_floor_add_one (n : ℕ) {d : ℕ} (hd : 0 < d) :
    (n : ℚ) / d < (n / d : ℕ) + 1 := by
  have hd' : (0 : ℚ) < d := by exact_mod_cast hd
  rw [div_lt_iff₀ hd']
  have := Nat.lt_mul_div_succ n hd
  rw [mul_comm]
  exact_mod_cast this

/-- What has no room exceeds the range. -/
theorem limit_le_of_room_lt {q p : ℕ} {s : ℤ} (h : room q s < p)
    (hp : p ≤ 9) (hs : s + p ≤ maxScale) : limit ≤ q * 10 ^ p :=
  Nat.le_of_not_lt fun hq => (le_room (by omega) hp hs hq).not_gt h

/-- A round multiplies the dividend and raises the scale by the same
power of ten. -/
private theorem scaled_round {d n : ℕ} {s : ℤ} {v : ℚ}
    (hv : v * 10 ^ s = n / d) (p : ℕ) :
    v * 10 ^ (s + (p : ℤ)) = ((n * 10 ^ p : ℕ) : ℚ) / d := by
  rw [zpow_add₀ (by norm_num), ← mul_assoc, hv, zpow_natCast]
  push_cast
  ring

-- =============================================================== the ends

section Ends

variable {d n : ℕ} {s : ℤ} {v : ℚ}

/-- A value at a negative scale, written out. -/
private theorem eq_mul_pow {w : ℚ} {k : ℕ} (hv : v * 10 ^ (-(k : ℤ)) = w) :
    v = w * 10 ^ k := by
  rwa [zpow_neg, zpow_natCast, mul_inv_eq_iff_eq_mul₀
    (pow_ten_pos' k).ne'] at hv

/-- A quotient without remainder is written out. -/
theorem rounds_of_whole {q : ℕ} (hq : q < limit) (hs : s ≤ maxScale)
    (hv : v * 10 ^ s = q) :
    Rounds v (settle (q * 10 ^ (-s).toNat : ℕ) s.toNat) := by
  rcases Int.le_total 0 s with h | h
  · lift s to ℕ using h
    rw [zpow_natCast] at hv
    refine settle_exact (by simpa using hs) ?_ (Or.inl ?_)
    · rw [eq_div_iff (pow_ten_pos' _).ne']
      simpa using hv
    · simpa using hq
  · obtain ⟨k, rfl⟩ : ∃ k : ℕ, s = -k := ⟨s.natAbs, by omega⟩
    have hscale : (-(k : ℤ)).toNat = 0 := by omega
    rw [hscale]
    refine settle_exact (Nat.zero_le _) ?_ (Or.inr rfl)
    rw [eq_mul_pow hv, neg_neg, Int.toNat_natCast]
    push_cast
    ring

/-- Digits that do not fit while the scale is negative are too many. -/
theorem not_inRange_of_scale_neg (hv : v * 10 ^ s = n / d)
    (hroom : room (n / d) s < 9) (hneg : s + room (n / d) s < 0) :
    ¬InRange v := by
  obtain ⟨k, rfl⟩ : ∃ k : ℕ, s = -k := ⟨s.natAbs, by omega⟩
  have hout : limit ≤ n / d * 10 ^ (room (n / d) (-(k : ℤ)) + 1) :=
    limit_le_of_room_lt (Nat.lt_succ_self _) (by omega)
      (by unfold maxScale; push_cast; omega)
  have hout' : limit ≤ n / d * 10 ^ k :=
    hout.trans (Nat.mul_le_mul_left (n / d)
      (Nat.pow_le_pow_right (by norm_num) (by omega)))
  refine not_inRange_of_limit_le ?_
  rw [eq_mul_pow hv]
  calc (limit : ℚ) ≤ (n / d * 10 ^ k : ℕ) := by exact_mod_cast hout'
    _ = (n / d : ℕ) * 10 ^ k := by push_cast; rfl
    _ ≤ n / d * 10 ^ k :=
      mul_le_mul_of_nonneg_right Nat.cast_div_le (pow_ten_pos' k).le

/-- Where no digit has room the last one found is rounded. -/
theorem rounds_of_room_eq_zero (hd : 0 < d) (hq : n / d < limit)
    (hs : s ≤ maxScale) (hv : v * 10 ^ s = n / d) (hnonneg : 0 ≤ v)
    (hroom : room (n / d) s = 0) (h : 0 ≤ s) :
    Rounds v (settle (quotient .toEven n d) s.toNat) := by
  lift s to ℕ using h
  rw [zpow_natCast] at hv
  rw [quotient_eq_nearest _ _ hd, Int.cast_natCast, ← hv,
    Int.toNat_natCast]
  have hq' : ((n / d : ℕ) : ℚ) + 1 ≤ 2 ^ 96 := by
    rw [← natCast_limit]
    exact_mod_cast hq
  have hbelow := div_lt_floor_add_one n hd
  refine settle_rounds (by simpa using hs) ?_ ?_
  · rw [abs_of_nonneg hnonneg, hv]
    linarith
  · by_cases hmax : s = maxScale
    · exact Or.inl hmax
    · refine Or.inr ?_
      have hout : limit ≤ n / d * 10 ^ 1 :=
        limit_le_of_room_lt (s := (s : ℤ)) (by omega) (by norm_num)
          (by push_cast; omega)
      have hfloor : ((n / d : ℕ) : ℚ) ≤ n / d := Nat.cast_div_le
      have hout' : (2 : ℚ) ^ 96 ≤ (n / d : ℕ) * 10 := by
        rw [← natCast_limit]
        exact_mod_cast hout
      rw [abs_of_nonneg hnonneg, pow_succ, ← mul_assoc, hv, reach]
      linarith

/-- A round passes the range by less than the digits it brought down
can amount to. -/
theorem round_lt (hd : 0 < d) (hroom : room (n / d) s ≠ 0) :
    ((n * 10 ^ room (n / d) s : ℕ) : ℚ) / d < 2 ^ 96 + 10 ^ 9 := by
  obtain ⟨hfits, hnine⟩ := mul_pow_room_lt hroom
  have hpow : (10 : ℚ) ^ room (n / d) s ≤ 10 ^ 9 :=
    pow_le_pow_right₀ (by norm_num) hnine
  have hfits' : ((n / d : ℕ) : ℚ) * 10 ^ room (n / d) s ≤ 2 ^ 96 := by
    rw [← natCast_limit]
    exact_mod_cast hfits.le
  calc ((n * 10 ^ room (n / d) s : ℕ) : ℚ) / d
      = n / d * 10 ^ room (n / d) s := by
        push_cast
        ring
    _ < ((n / d : ℕ) + 1) * 10 ^ room (n / d) s :=
        mul_lt_mul_of_pos_right (div_lt_floor_add_one n hd)
          (pow_ten_pos' _)
    _ ≤ 2 ^ 96 + 10 ^ 9 := by linarith

/-- A round that brought down one digit too many is rounded one digit
shorter. -/
theorem rounds_of_limit_le (hd : 0 < d) (hs : s ≤ maxScale)
    (hv : v * 10 ^ s = n / d) (hnonneg : 0 ≤ v) (hpos : 0 < s)
    (hout : limit ≤ n / d) (hlt : (n : ℚ) / d < 2 ^ 96 + 10 ^ 9) :
    Rounds v (settle (quotient .toEven n (10 * d)) (s - 1).toNat) := by
  obtain ⟨g, rfl⟩ : ∃ g : ℕ, s = (g : ℤ) + 1 :=
    ⟨(s - 1).toNat, by omega⟩
  have hscale : ((g : ℤ) + 1 - 1).toNat = g := by omega
  have hlast : v * 10 ^ g * 10 = (n : ℚ) / d := by
    rw [← hv, zpow_add₀ (by norm_num), zpow_natCast, zpow_one, mul_assoc]
  have hround : ((n : ℤ) : ℚ) / ((10 * d : ℕ) : ℚ) = v * 10 ^ g := by
    push_cast
    rw [mul_comm (10 : ℚ), ← div_div, ← hlast]
    ring
  have hbelow : (2 : ℚ) ^ 96 ≤ n / d := by
    rw [← natCast_limit]
    exact le_trans (by exact_mod_cast hout) Nat.cast_div_le
  rw [hscale, quotient_eq_nearest _ _ (by omega), hround]
  refine settle_rounds (by omega) ?_ (Or.inr ?_)
  · rw [abs_of_nonneg hnonneg]
    linarith
  · rw [abs_of_nonneg hnonneg, pow_succ, ← mul_assoc, hlast, reach]
    linarith

end Ends

/-- Long division answers for the exact quotient: `v` at the scale of
the state is `n / d`, and no round changes that. -/
theorem longDivide_rounds {d n : ℕ} {s : ℤ} {v : ℚ} (hd : 0 < d)
    (hq : n / d < limit) (hs : s ≤ maxScale)
    (hv : v * 10 ^ s = n / d) : Rounds v (longDivide d n s) := by
  have hd' : (d : ℚ) ≠ 0 := by exact_mod_cast hd.ne'
  have hnonneg : 0 ≤ v := by
    have : 0 ≤ v * 10 ^ s := by
      rw [hv]
      positivity
    exact nonneg_of_mul_nonneg_left this (zpow_pos (by norm_num) s)
  fun_induction longDivide d n s with
  | case1 n s q hr =>
      refine rounds_of_whole hq hs (hv.trans ?_)
      exact (Nat.cast_div (Nat.dvd_of_mod_eq_zero hr) hd').symm
  | case2 n s q p hr hp => exact not_inRange_of_scale_neg hv hp.2.1 hp.2.2
  | case3 n s q p hr hp hp0 =>
      exact rounds_of_room_eq_zero hd hq hs hv hnonneg hp0 (by omega)
  | case4 n s q p hr hp hp0 n' s' hlt ih =>
      exact ih hlt (room_le hp0) (scaled_round hv p)
  | case5 n s q p hr hp hp0 n' s' hlt hs' =>
      have hv' : v * 10 ^ s' = (n' : ℚ) / d := scaled_round hv p
      have hpow : (10 : ℚ) ^ s' ≤ 1 :=
        zpow_le_one_of_nonpos₀ (by norm_num) hs'
      refine not_inRange_of_limit_le ?_
      calc (limit : ℚ) ≤ (n' / d : ℕ) := by exact_mod_cast not_lt.1 hlt
        _ ≤ (n' : ℚ) / d := Nat.cast_div_le
        _ = v * 10 ^ s' := hv'.symm
        _ ≤ v := mul_le_of_le_one_right hnonneg hpow
  | case6 n s q p hr hp hp0 n' s' hlt hs' =>
      exact rounds_of_limit_le hd (room_le hp0) (scaled_round hv p) hnonneg
        (not_le.1 hs') (not_lt.1 hlt) (round_lt hd hp0)

theorem toRat_shorten (places : ℕ) (a : Decimal) :
    (a.shorten places).toRat = a.toRat := by
  unfold shorten
  split
  · rename_i h
    obtain ⟨hscale, hzeros⟩ := h
    have hcut : (a.magnitude : ℚ) / 10 ^ a.scale
        = (a.magnitude / 10 ^ places : ℕ) / 10 ^ (a.scale - places) := by
      have hsplit : (10 : ℚ) ^ a.scale
          = 10 ^ places * 10 ^ (a.scale - places) := by
        rw [← pow_add, Nat.add_sub_cancel' hscale]
      have hp := (pow_ten_pos' places).ne'
      rw [hsplit, Nat.cast_div (Nat.dvd_of_mod_eq_zero hzeros)
        (by exact_mod_cast hp), ← div_div]
      push_cast
      rfl
    rw [toRat_eq_sign, toRat_eq_sign, hcut]
  · rfl

theorem toRat_normalize (a : Decimal) : a.normalize.toRat = a.toRat := by
  have hrepeat (n : ℕ) : (Nat.repeat (shorten 1) n a).toRat = a.toRat := by
    induction n with
    | zero => rfl
    | succ n ih =>
        show (shorten 1 (Nat.repeat (shorten 1) n a)).toRat = _
        rw [toRat_shorten, ih]
  unfold normalize
  by_cases hzero : a.isZero = true
  · rw [if_pos hzero, toRat_zero, isZero_iff.1 hzero]
  · rw [if_neg hzero]
    exact hrepeat a.scale

theorem toRat_shortenQuotient (a : Decimal) :
    a.shortenQuotient.toRat = a.toRat := by
  have height : ∀ b : Decimal, b.shortenByEight.toRat = b.toRat := by
    intro b
    unfold shortenByEight
    split
    · exact toRat_shorten 8 b
    · rfl
  unfold shortenQuotient
  rw [toRat_shorten, toRat_shorten, toRat_shorten]
  show (shortenByEight (shortenByEight (shortenByEight a))).toRat = _
  rw [height, height, height]

-- ========================================================== two amounts

/-- Two magnitudes divided, at the scale that division starts with. -/
theorem magnitude_div (a : Decimal) {b : Decimal} (hb : b.magnitude ≠ 0) :
    (a.magnitude : ℚ) / 10 ^ a.scale / (b.magnitude / 10 ^ b.scale)
        * 10 ^ ((a.scale : ℤ) - b.scale)
      = a.magnitude / b.magnitude := by
  have hpa := (pow_ten_pos' a.scale).ne'
  have hpb := (pow_ten_pos' b.scale).ne'
  have hb' : (b.magnitude : ℚ) ≠ 0 := by exact_mod_cast hb
  rw [zpow_sub₀ (by norm_num), zpow_natCast, zpow_natCast]
  field_simp

/-- The sign of a quotient compares the signs. -/
theorem toRat_div_eq_sign (a b : Decimal) :
    a.toRat / b.toRat = (if a.negative = b.negative then 1 else -1)
      * (a.magnitude / 10 ^ a.scale / (b.magnitude / 10 ^ b.scale)) := by
  rw [toRat_eq_sign, toRat_eq_sign]
  cases a.negative <;> cases b.negative <;> simp [neg_div, div_neg]

/-- The quotient of two amounts, the divisor not being zero, answers for
the quotient of their values. -/
theorem div?_rounds (a : Decimal) {b : Decimal} (hb : b.toRat ≠ 0) :
    Rounds (a.toRat / b.toRat) (a.div? b) := by
  unfold div?
  split
  · rename_i ha
    rw [isZero_iff] at ha
    exact rounds_self (by rw [ha, zero_div, toRat_zero])
  · have hd : 0 < b.magnitude := by
      refine Nat.pos_of_ne_zero fun h => hb ?_
      rw [toRat_eq_sign, h]
      simp
    have hn : a.magnitude / b.magnitude < limit :=
      lt_of_le_of_lt (Nat.div_le_self _ _) a.magnitude_lt
    have hscale : (a.scale : ℤ) - b.scale ≤ maxScale := by
      have := a.scale_le
      omega
    have hdivide := longDivide_rounds hd hn hscale (magnitude_div a hd.ne')
    rw [toRat_div_eq_sign]
    simp only
    cases hm : longDivide b.magnitude a.magnitude
        ((a.scale : ℤ) - b.scale) with
    | none =>
        rw [hm] at hdivide
        split
        · rwa [one_mul]
        · rw [neg_one_mul]
          exact fun h => hdivide (inRange_neg.1 h)
    | some m =>
        rw [hm] at hdivide
        have hshort : (if a.magnitude % b.magnitude = 0 then m
            else m.shortenQuotient).toRat = m.toRat := by
          split
          · rfl
          · exact toRat_shortenQuotient m
        simp only [Rounds, toRat_signZero]
        split
        · rw [one_mul, hshort]
          exact hdivide
        · rw [neg_one_mul, toRat_neg, hshort, inRange_neg, nearest_neg]
          exact ⟨hdivide.1, congrArg _ hdivide.2⟩

theorem div_eq_orFault (a : Decimal) {b : Decimal} (hb : b.toRat ≠ 0) :
    a.div b = orFault .divisionOverflow (a.div? b) := by
  rw [div, if_neg (fun h => hb (isZero_iff.1 h))]

end Payroll.Decimal
