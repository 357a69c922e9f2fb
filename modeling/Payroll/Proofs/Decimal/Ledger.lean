/-
Amounts of a ledger. Arithmetic rounds, and a sum of rounded sums need
not be the sum. It is one wherever the amounts have at most four places
and stay below `10 ^ 24`: a coefficient then has at most 28 digits and
is kept whole.

# Sums

Whether the partial sums of a list stay that small need not be assumed.
Adding an amount that is not negative never lowers a rounded sum, so the
partial sums rise to the last one, and a last sum that is small enough
shows that every one of them was exact (`Payable.sum`). Where the exact
total is small enough there is a sum in the first place
(`Payable.exists_sum`).

Rates have more places than a ledger. While they add up to less than
one they are added exactly all the same, because every place of an
amount is kept there (`sum_lt_one_iff`).

# Order

An operation whose exact result lies between zero and that of another
one succeeds if the other does, and its result lies below
(`Rounds.exists_le`). Every comparison of two calculations rests on it.
-/
import Payroll.Proofs.Decimal.Division
import Payroll.Proofs.Decimal.Whole
import Payroll.Rounding

namespace Payroll.Decimal

variable {a b c : Decimal}

-- ============================================================== results

theorem toRat_add (h : a.add b = .ok c) :
    c.toRat = nearest (a.toRat + b.toRat) :=
  (add?_rounds a b).toRat_of_ok h

theorem toRat_sub (h : a.sub b = .ok c) :
    c.toRat = nearest (a.toRat - b.toRat) :=
  (sub?_rounds a b).toRat_of_ok h

theorem toRat_mul (h : a.mul b = .ok c) :
    c.toRat = nearest (a.toRat * b.toRat) :=
  (mul?_rounds a b).toRat_of_ok h

theorem toRat_div (hb : b.toRat ≠ 0) (h : a.div b = .ok c) :
    c.toRat = nearest (a.toRat / b.toRat) := by
  rw [div_eq_orFault a hb] at h
  exact (div?_rounds a hb).toRat_of_ok h

theorem toRat_mul_nonneg (ha : 0 ≤ a.toRat) (hb : 0 ≤ b.toRat)
    (h : a.mul b = .ok c) : 0 ≤ c.toRat := by
  rw [toRat_mul h]
  exact nearest_nonneg (mul_nonneg ha hb)

/-- Nothing is divided by zero. -/
theorem ne_zero_of_div (h : a.div b = .ok c) : b.toRat ≠ 0 := by
  intro hb
  rw [div, if_pos (isZero_iff.2 hb)] at h
  cases h

theorem toRat_div_nonneg (ha : 0 ≤ a.toRat) (hb : 0 ≤ b.toRat)
    (h : a.div b = .ok c) : 0 ≤ c.toRat := by
  rw [toRat_div (ne_zero_of_div h) h]
  exact nearest_nonneg (div_nonneg ha hb)

/-- Adding what is not negative never lowers a rounded sum. -/
theorem toRat_le_add_left (hb : 0 ≤ b.toRat) (h : a.add b = .ok c) :
    a.toRat ≤ c.toRat := by
  rw [toRat_add h]
  calc a.toRat = nearest a.toRat := (nearest_toRat a).symm
    _ ≤ nearest (a.toRat + b.toRat) := nearest_mono (by linarith)

theorem toRat_le_add_right (ha : 0 ≤ a.toRat) (h : a.add b = .ok c) :
    b.toRat ≤ c.toRat := by
  rw [toRat_add h]
  calc b.toRat = nearest b.toRat := (nearest_toRat b).symm
    _ ≤ nearest (a.toRat + b.toRat) := nearest_mono (by linarith)

theorem toRat_sub_le (h : a.sub b = .ok c) (hb : 0 ≤ b.toRat) :
    c.toRat ≤ a.toRat := by
  rw [toRat_sub h]
  calc nearest (a.toRat - b.toRat) ≤ nearest a.toRat :=
        nearest_mono (by linarith)
    _ = a.toRat := nearest_toRat a

/-- Sums and differences of whole units are whole numbers of them, also
where they are rounded. -/
theorem whole_add {p : ℕ} (h : a.add b = .ok c) (ha : Whole p a.toRat)
    (hb : Whole p b.toRat) : Whole p c.toRat := by
  rw [toRat_add h]
  exact (ha.add hb).nearest

theorem whole_sub {p : ℕ} (h : a.sub b = .ok c) (ha : Whole p a.toRat)
    (hb : Whole p b.toRat) : Whole p c.toRat := by
  rw [toRat_sub h]
  exact (ha.sub hb).nearest

-- ================================================================ order

/-- An operation with a result has one for every smaller exact value. -/
theorem Rounds.exists_le {v v' : ℚ} {o o' : Option Decimal} {f : Fault}
    (h : Rounds v o) (h' : Rounds v' o') (ho : orFault f o = .ok a)
    (hnonneg : 0 ≤ v') (hle : v' ≤ v) :
    ∃ a', orFault f o' = .ok a' ∧ 0 ≤ a'.toRat ∧ a'.toRat ≤ a.toRat := by
  have hrange : InRange v' := by
    refine (h.inRange_of_ok ho).of_abs_le ?_
    rw [abs_of_nonneg hnonneg, abs_of_nonneg (hnonneg.trans hle)]
    exact hle
  obtain ⟨a', ha', hvalue⟩ := h'.exists_ok hrange f
  refine ⟨a', ha', ?_, ?_⟩
  · rw [hvalue]
    exact nearest_nonneg hnonneg
  · rw [hvalue, h.toRat_of_ok ho]
    exact nearest_mono hle

theorem exists_add_le {a' b' : Decimal} (h : a.add b = .ok c)
    (ha : 0 ≤ a'.toRat) (hb : 0 ≤ b'.toRat) (haa : a'.toRat ≤ a.toRat)
    (hbb : b'.toRat ≤ b.toRat) :
    ∃ c', a'.add b' = .ok c' ∧ 0 ≤ c'.toRat ∧ c'.toRat ≤ c.toRat :=
  (add?_rounds a b).exists_le (add?_rounds a' b') h (by linarith)
    (by linarith)

theorem exists_sub_le {a' : Decimal} (h : a.sub b = .ok c)
    (hb : b.toRat ≤ a'.toRat) (haa : a'.toRat ≤ a.toRat) :
    ∃ c', a'.sub b = .ok c' ∧ 0 ≤ c'.toRat ∧ c'.toRat ≤ c.toRat :=
  (sub?_rounds a b).exists_le (sub?_rounds a' b) h (by linarith)
    (by linarith)

theorem exists_mul_le {a' : Decimal} (h : a.mul b = .ok c)
    (ha : 0 ≤ a'.toRat) (hb : 0 ≤ b.toRat) (haa : a'.toRat ≤ a.toRat) :
    ∃ c', a'.mul b = .ok c' ∧ 0 ≤ c'.toRat ∧ c'.toRat ≤ c.toRat :=
  (mul?_rounds a b).exists_le (mul?_rounds a' b) h
    (mul_nonneg ha hb) (mul_le_mul_of_nonneg_right haa hb)

/-- A share of an amount that is not negative is an amount. -/
theorem exists_share (ha : 0 ≤ a.toRat) (hb : 0 ≤ b.toRat)
    (hb' : b.toRat ≤ 1) : ∃ c, a.mul b = .ok c := by
  have hrange : InRange (a.toRat * b.toRat) := by
    refine (inRange_toRat a).of_abs_le ?_
    rw [abs_of_nonneg (mul_nonneg ha hb), abs_of_nonneg ha]
    exact mul_le_of_le_one_right ha hb'
  obtain ⟨c, hc, -⟩ :=
    (mul?_rounds a b).exists_ok hrange .multiplicationOverflow
  exact ⟨c, hc⟩

theorem exists_div_le {a' : Decimal} (h : a.div b = .ok c)
    (ha : 0 ≤ a'.toRat) (hb : 0 < b.toRat) (haa : a'.toRat ≤ a.toRat) :
    ∃ c', a'.div b = .ok c' ∧ 0 ≤ c'.toRat ∧ c'.toRat ≤ c.toRat := by
  rw [div_eq_orFault _ hb.ne'] at h ⊢
  exact (div?_rounds a hb.ne').exists_le (div?_rounds a' hb.ne') h
    (div_nonneg ha hb.le) (div_le_div_of_nonneg_right haa hb.le)

-- ========================================================== exact amounts

/-- An operation whose exact result has no more than 28 digits has just
that result. -/
theorem Rounds.exists_exact {v : ℚ} {p : ℕ} {o : Option Decimal}
    (h : Rounds v o) (hv : Whole p v) (hp : p ≤ maxScale)
    (hle : |v| * 10 ^ p ≤ 10 ^ 28) (f : Fault) :
    ∃ c, orFault f o = .ok c ∧ c.toRat = v := by
  have hone : (1 : ℚ) ≤ 10 ^ p := one_le_pow₀ (by norm_num)
  have hrange : InRange v :=
    (le_mul_of_one_le_right (abs_nonneg v) hone).trans_lt
      (hle.trans_lt (by norm_num [reach]))
  obtain ⟨c, hc, hvalue⟩ := h.exists_ok hrange f
  exact ⟨c, hc, hvalue.trans (hv.nearest_eq hp hle)⟩

/-- An operation whose exact result is not negative and has 28 digits
before the point has a result, above it by one half at most. -/
theorem Rounds.exists_near {v : ℚ} {o : Option Decimal} (h : Rounds v o)
    (hnonneg : 0 ≤ v) (hle : v ≤ 10 ^ 28) (f : Fault) :
    ∃ c, orFault f o = .ok c ∧ 0 ≤ c.toRat ∧ c.toRat ≤ v + 1 / 2 := by
  have hrange : InRange v := by
    rw [InRange, abs_of_nonneg hnonneg, reach]
    linarith
  obtain ⟨c, hc, hvalue⟩ := h.exists_ok hrange f
  refine ⟨c, hc, ?_, ?_⟩ <;> rw [hvalue]
  · exact nearest_nonneg hnonneg
  · exact nearest_le_add_half hnonneg hle

theorem exists_mul_near (ha : 0 ≤ a.toRat) (hb : 0 ≤ b.toRat)
    (hle : a.toRat * b.toRat ≤ 10 ^ 28) :
    ∃ c, a.mul b = .ok c ∧ 0 ≤ c.toRat
      ∧ c.toRat ≤ a.toRat * b.toRat + 1 / 2 :=
  (mul?_rounds a b).exists_near (mul_nonneg ha hb) hle _

theorem exists_div_near (ha : 0 ≤ a.toRat) (hb : 0 < b.toRat)
    (hle : a.toRat / b.toRat ≤ 10 ^ 28) :
    ∃ c, a.div b = .ok c ∧ 0 ≤ c.toRat
      ∧ c.toRat ≤ a.toRat / b.toRat + 1 / 2 := by
  rw [div_eq_orFault a hb.ne']
  exact (div?_rounds a hb.ne').exists_near (div_nonneg ha hb.le) hle _

/-- A value with at most four places. -/
def InLedger (v : ℚ) : Prop := ∃ k : ℤ, v * 10 ^ 4 = k

instance (v : ℚ) : Decidable (InLedger v) :=
  inferInstanceAs (Decidable (Whole 4 v))

theorem inLedger_intCast (n : ℤ) : InLedger n := whole_intCast 4 n

theorem InLedger.add {u v : ℚ} (hu : InLedger u) (hv : InLedger v) :
    InLedger (u + v) :=
  Whole.add hu hv

theorem InLedger.sub {u v : ℚ} (hu : InLedger u) (hv : InLedger v) :
    InLedger (u - v) :=
  Whole.sub hu hv

/-- Values of a ledger are kept whole up to 24 digits before the
point. -/
theorem InLedger.nearest_eq {v : ℚ} (h : InLedger v)
    (hv : |v| ≤ 10 ^ 24) : nearest v = v :=
  Whole.nearest_eq h (by decide) (by linarith)

theorem add_exact (h : a.add b = .ok c) (ha : InLedger a.toRat)
    (hb : InLedger b.toRat) (hle : |a.toRat + b.toRat| ≤ 10 ^ 24) :
    c.toRat = a.toRat + b.toRat := by
  rw [toRat_add h, (ha.add hb).nearest_eq hle]

/-- An amount that a ledger can hold and that is not negative. -/
structure Held (a : Decimal) : Prop where
  nonneg : 0 ≤ a.toRat
  inLedger : InLedger a.toRat

theorem held_zero : Held zero :=
  ⟨by rw [toRat_zero], by rw [toRat_zero]; exact whole_zero 4⟩

/-- A sum of such amounts that comes out small enough is exact. -/
theorem Held.add (ha : Held a) (hb : Held b) (h : a.add b = .ok c)
    (hc : c.toRat ≤ 10 ^ 23) : c.toRat = a.toRat + b.toRat ∧ Held c := by
  have hleft := toRat_le_add_left hb.nonneg h
  have hright := toRat_le_add_right ha.nonneg h
  have hexact : c.toRat = a.toRat + b.toRat := by
    refine add_exact h ha.inLedger hb.inLedger ?_
    rw [abs_of_nonneg (add_nonneg ha.nonneg hb.nonneg)]
    linarith
  exact ⟨hexact, ha.nonneg.trans hleft,
    hexact ▸ ha.inLedger.add hb.inLedger⟩

theorem Held.add_of_le (ha : Held a) (hb : Held b) (h : a.add b = .ok c)
    (hle : a.toRat + b.toRat ≤ 10 ^ 24) :
    c.toRat = a.toRat + b.toRat ∧ Held c := by
  have hnonneg := add_nonneg ha.nonneg hb.nonneg
  have hexact := add_exact h ha.inLedger hb.inLedger
    (by rwa [abs_of_nonneg hnonneg])
  exact ⟨hexact, hexact ▸ hnonneg, hexact ▸ ha.inLedger.add hb.inLedger⟩

theorem exists_add (ha : InLedger a.toRat) (hb : InLedger b.toRat)
    (hle : |a.toRat + b.toRat| ≤ 10 ^ 24) :
    ∃ c, a.add b = .ok c ∧ c.toRat = a.toRat + b.toRat :=
  (add?_rounds a b).exists_exact (ha.add hb) (by decide) (by linarith) _

/-- Amounts of a ledger have a sum while it is small enough. -/
theorem Held.exists_add (ha : Held a) (hb : Held b)
    (hle : a.toRat + b.toRat ≤ 10 ^ 24) :
    ∃ c, a.add b = .ok c ∧ c.toRat = a.toRat + b.toRat ∧ Held c := by
  have hnonneg := add_nonneg ha.nonneg hb.nonneg
  obtain ⟨c, hc, hvalue⟩ := Decimal.exists_add ha.inLedger hb.inLedger
    (by rwa [abs_of_nonneg hnonneg])
  exact ⟨c, hc, hvalue, (ha.add_of_le hb hc hle).2⟩

theorem sub_exact (h : a.sub b = .ok c) (ha : InLedger a.toRat)
    (hb : InLedger b.toRat) (hle : |a.toRat - b.toRat| ≤ 10 ^ 24) :
    c.toRat = a.toRat - b.toRat := by
  rw [toRat_sub h, (ha.sub hb).nearest_eq hle]

theorem exists_sub (ha : InLedger a.toRat) (hb : InLedger b.toRat)
    (hle : |a.toRat - b.toRat| ≤ 10 ^ 24) :
    ∃ c, a.sub b = .ok c ∧ c.toRat = a.toRat - b.toRat :=
  (sub?_rounds a b).exists_exact (ha.sub hb) (by decide) (by linarith) _

theorem nearest_neg_one : nearest (-1) = -1 := by
  have h : InLedger (-1) := ⟨-10 ^ 4, by norm_num⟩
  exact h.nearest_eq (by norm_num)

/-- What is taken away leaves less than nothing if it exceeds the amount
by more than one. -/
theorem le_add_one_of_sub (h : a.sub b = .ok c) (hc : 0 ≤ c.toRat) :
    b.toRat ≤ a.toRat + 1 := by
  by_contra hlt
  rw [not_le] at hlt
  have hle : c.toRat ≤ nearest (-1) := by
    rw [toRat_sub h]
    exact nearest_mono (by linarith)
  rw [nearest_neg_one] at hle
  linarith

-- ================================================================= sums

/-- The exact total of some amounts. -/
def total (amounts : List Decimal) : ℚ := (amounts.map toRat).sum

@[simp] theorem total_nil : total [] = 0 := rfl

@[simp] theorem total_cons (a : Decimal) (l : List Decimal) :
    total (a :: l) = a.toRat + total l := by
  simp [total]

theorem total_append (l l' : List Decimal) :
    total (l ++ l') = total l + total l' := by
  rw [total, List.map_append, List.sum_append]
  rfl

theorem total_nonneg {l : List Decimal} (h : ∀ a ∈ l, 0 ≤ a.toRat) :
    0 ≤ total l := by
  refine List.sum_nonneg fun v hv => ?_
  obtain ⟨a, ha, rfl⟩ := List.mem_map.1 hv
  exact h a ha

theorem total_perm {l l' : List Decimal} (h : l.Perm l') :
    total l = total l' :=
  (h.map toRat).sum_eq

theorem total_map_le {α : Type} {l : List α} {f g : α → Decimal}
    (h : ∀ x ∈ l, (f x).toRat ≤ (g x).toRat) :
    total (l.map f) ≤ total (l.map g) := by
  unfold total
  rw [List.map_map, List.map_map]
  exact List.sum_le_sum h

/-- Values that are off by `d` at most add up to a sum that is off by
`d` for each of them. -/
theorem sum_map_le_add {α : Type} {l : List α} {f g : α → ℚ} {d : ℚ}
    (h : ∀ x ∈ l, f x ≤ g x + d) :
    (l.map f).sum ≤ (l.map g).sum + l.length * d := by
  induction l with
  | nil => simp
  | cons x l ih =>
      have hx := h x List.mem_cons_self
      have hl := ih fun y hy => h y (List.mem_cons_of_mem x hy)
      rw [List.map_cons, List.map_cons, List.sum_cons, List.sum_cons,
        List.length_cons]
      push_cast
      linarith

/-- Amounts rounded up and the same rounded down differ by one each. -/
theorem total_ceil_le {α : Type} (l : List α) (f : α → Decimal) :
    total (l.map fun x => (f x).ceil)
      ≤ total (l.map fun x => (f x).floor) + l.length := by
  have h : total (l.map fun x => (f x).ceil)
      ≤ total (l.map fun x => (f x).floor) + l.length * 1 := by
    unfold total
    rw [List.map_map, List.map_map]
    refine sum_map_le_add fun x _ => ?_
    simp only [Function.comp_apply, toRat_ceil, toRat_floor]
    exact_mod_cast Int.ceil_le_floor_add_one _
  rwa [mul_one] at h

/-- Amounts that a ledger can hold and that are not negative. -/
def Payable (l : List Decimal) : Prop := ∀ a ∈ l, Held a

theorem payable_map {α : Type} {l : List α} {f : α → Decimal}
    (h : ∀ x ∈ l, Held (f x)) : Payable (l.map f) := by
  intro a ha
  obtain ⟨x, hx, rfl⟩ := List.mem_map.1 ha
  exact h x hx

theorem Payable.nonneg {l : List Decimal} (h : Payable l) :
    0 ≤ total l :=
  total_nonneg fun a ha => (h a ha).nonneg

theorem Payable.tail {l : List Decimal} (h : Payable (a :: l)) :
    Payable l :=
  fun b hb => h b (List.mem_cons_of_mem a hb)

/-- A total of whole units is a whole number of them. -/
theorem whole_total {p : ℕ} {l : List Decimal}
    (h : ∀ a ∈ l, Whole p a.toRat) : Whole p (total l) := by
  refine Whole.sum fun v hv => ?_
  obtain ⟨a, ha, rfl⟩ := List.mem_map.1 hv
  exact h a ha

/-- Partial sums of amounts that are not negative rise. -/
theorem le_foldlM_add {l : List Decimal} (h : ∀ a ∈ l, 0 ≤ a.toRat)
    (hsum : l.foldlM add a = .ok c) : a.toRat ≤ c.toRat := by
  induction l generalizing a with
  | nil =>
      cases hsum
      exact le_rfl
  | cons b l ih =>
      rw [List.foldlM_cons] at hsum
      cases hab : a.add b with
      | error e =>
          rw [hab] at hsum
          cases hsum
      | ok a' =>
          rw [hab] at hsum
          have hstep := toRat_le_add_left (h b List.mem_cons_self) hab
          exact hstep.trans
            (ih (fun a ha => h a (List.mem_cons_of_mem b ha)) hsum)

/-- A sum that comes out with no more than 27 digits was never
rounded: no partial sum exceeds it. -/
theorem foldlM_add_whole {p : ℕ} (hp : p ≤ maxScale) {l : List Decimal}
    (hl : ∀ b ∈ l, 0 ≤ b.toRat ∧ Whole p b.toRat) (ha : 0 ≤ a.toRat)
    (hwhole : Whole p a.toRat) (hsum : l.foldlM add a = .ok c)
    (hc : c.toRat * 10 ^ p ≤ 10 ^ 27) : c.toRat = a.toRat + total l := by
  induction l generalizing a with
  | nil =>
      cases hsum
      rw [total_nil, add_zero]
  | cons b l ih =>
      obtain ⟨hb, hbwhole⟩ := hl b List.mem_cons_self
      have hrest := fun b' hb' => hl b' (List.mem_cons_of_mem b hb')
      rw [List.foldlM_cons] at hsum
      cases hab : a.add b with
      | error e =>
          rw [hab] at hsum
          cases hsum
      | ok a' =>
          rw [hab] at hsum
          have hlast := le_foldlM_add (fun b' hb' => (hrest b' hb').1) hsum
          have hleft := (toRat_le_add_left hb hab).trans hlast
          have hright := (toRat_le_add_right ha hab).trans hlast
          have hexact : a'.toRat = a.toRat + b.toRat := by
            rw [toRat_add hab]
            refine (hwhole.add hbwhole).nearest_eq hp ?_
            rw [abs_of_nonneg (add_nonneg ha hb)]
            calc (a.toRat + b.toRat) * 10 ^ p
                ≤ (c.toRat + c.toRat) * 10 ^ p := by gcongr
              _ ≤ 10 ^ 28 := by linarith
          have h := ih hrest (hexact ▸ add_nonneg ha hb)
            (hexact ▸ hwhole.add hbwhole) hsum
          rw [h, hexact, total_cons, add_assoc]

/-- A sum that comes out small enough is the exact total. -/
theorem Payable.sum {l : List Decimal} (hl : Payable l)
    (hsum : sum l = .ok c) (hc : c.toRat ≤ 10 ^ 23) :
    c.toRat = total l ∧ Held c := by
  have h := foldlM_add_whole (p := 4) (by decide)
    (fun b hb => ⟨(hl b hb).nonneg, (hl b hb).inLedger⟩)
    held_zero.nonneg held_zero.inLedger hsum (by linarith)
  rw [toRat_zero, zero_add] at h
  exact ⟨h, h ▸ hl.nonneg,
    h ▸ whole_total fun b hb => (hl b hb).inLedger⟩

/-- A sum of whole units is a whole number of them, however large. -/
theorem whole_foldlM_add {p : ℕ} {l : List Decimal}
    (hl : ∀ b ∈ l, Whole p b.toRat) (ha : Whole p a.toRat)
    (hsum : l.foldlM add a = .ok c) : Whole p c.toRat := by
  induction l generalizing a with
  | nil =>
      cases hsum
      exact ha
  | cons b l ih =>
      rw [List.foldlM_cons] at hsum
      cases hab : a.add b with
      | error e =>
          rw [hab] at hsum
          cases hsum
      | ok a' =>
          rw [hab] at hsum
          exact ih (fun b' hb' => hl b' (List.mem_cons_of_mem b hb'))
            (whole_add hab ha (hl b List.mem_cons_self)) hsum

theorem whole_sum {p : ℕ} {l : List Decimal}
    (hl : ∀ b ∈ l, Whole p b.toRat) (hsum : sum l = .ok c) :
    Whole p c.toRat :=
  whole_foldlM_add hl (by rw [toRat_zero]; exact whole_zero p) hsum

theorem toRat_sum_nonneg {l : List Decimal} (h : ∀ a ∈ l, 0 ≤ a.toRat)
    (hsum : sum l = .ok c) : 0 ≤ c.toRat := by
  have := le_foldlM_add h hsum
  rwa [toRat_zero] at this

/-- Whole units are added up exactly while their total has no more than
28 digits. -/
theorem exists_foldlM_add_whole {p : ℕ} (hp : p ≤ maxScale)
    {l : List Decimal} (hl : ∀ b ∈ l, 0 ≤ b.toRat ∧ Whole p b.toRat)
    (ha : 0 ≤ a.toRat) (hwhole : Whole p a.toRat)
    (hle : (a.toRat + total l) * 10 ^ p ≤ 10 ^ 28) :
    ∃ c, l.foldlM add a = .ok c ∧ c.toRat = a.toRat + total l := by
  induction l generalizing a with
  | nil => exact ⟨a, rfl, by rw [total_nil, add_zero]⟩
  | cons b l ih =>
      obtain ⟨⟨hb, hbwhole⟩, hrest⟩ := List.forall_mem_cons.1 hl
      have hnonneg := total_nonneg fun b' hb' => (hrest b' hb').1
      have hsum := add_nonneg ha hb
      rw [total_cons, ← add_assoc] at hle ⊢
      have hpart : (a.toRat + b.toRat) * 10 ^ p ≤ 10 ^ 28 := by
        refine le_trans ?_ hle
        exact mul_le_mul_of_nonneg_right
          (le_add_of_nonneg_right hnonneg) (pow_ten_pos' p).le
      obtain ⟨a', hab, hvalue⟩ := (add?_rounds a b).exists_exact
        (hwhole.add hbwhole) hp (by rwa [abs_of_nonneg hsum])
        .additionOverflow
      rw [← hvalue] at hle hsum ⊢
      obtain ⟨c, hc, hexact⟩ := ih hrest hsum
        (hvalue ▸ hwhole.add hbwhole) hle
      refine ⟨c, ?_, hexact⟩
      rw [List.foldlM_cons, show a.add b = .ok a' from hab]
      exact hc

theorem exists_sum_whole {p : ℕ} (hp : p ≤ maxScale) {l : List Decimal}
    (hl : ∀ b ∈ l, 0 ≤ b.toRat ∧ Whole p b.toRat)
    (hle : total l * 10 ^ p ≤ 10 ^ 28) :
    ∃ c, Decimal.sum l = .ok c ∧ c.toRat = total l := by
  have h := exists_foldlM_add_whole (a := zero) hp hl toRat_zero.ge
    (by rw [toRat_zero]; exact whole_zero p)
    (by rwa [toRat_zero, zero_add])
  rwa [toRat_zero, zero_add] at h

theorem exists_foldlM_add {l : List Decimal} (hl : Payable l)
    (ha : Held a) (hle : a.toRat + total l ≤ 10 ^ 23) :
    ∃ c, l.foldlM add a = .ok c ∧ c.toRat = a.toRat + total l
      ∧ Held c := by
  obtain ⟨c, hc, hvalue⟩ := exists_foldlM_add_whole (p := 4) (by decide)
    (fun b hb => ⟨(hl b hb).nonneg, (hl b hb).inLedger⟩)
    ha.nonneg ha.inLedger (by linarith)
  refine ⟨c, hc, hvalue, ?_, ?_⟩ <;> rw [hvalue]
  · exact add_nonneg ha.nonneg hl.nonneg
  · exact ha.inLedger.add (whole_total fun b hb => (hl b hb).inLedger)

/-- Amounts whose total is small enough have a sum, the exact one. -/
theorem Payable.exists_sum {l : List Decimal} (hl : Payable l)
    (hle : total l ≤ 10 ^ 23) :
    ∃ c, Decimal.sum l = .ok c ∧ c.toRat = total l ∧ Held c := by
  have h := exists_foldlM_add (a := zero) hl held_zero
    (by rwa [toRat_zero, zero_add])
  rwa [toRat_zero, zero_add] at h

/-- They can be added to an amount of a ledger. -/
theorem Payable.exists_add_sum {l : List Decimal} (hl : Payable l)
    (ha : Held a) (hle : a.toRat + total l ≤ 10 ^ 23) :
    ∃ sum c, Decimal.sum l = .ok sum ∧ a.add sum = .ok c
      ∧ c.toRat = a.toRat + total l ∧ Held c := by
  have hnonneg := ha.nonneg
  obtain ⟨sum, hsum, hvalue, hheld⟩ := hl.exists_sum (by linarith)
  rw [← hvalue] at hle ⊢
  obtain ⟨c, hc, hexact⟩ := ha.exists_add hheld (by linarith)
  exact ⟨sum, c, hsum, hc, hexact⟩

theorem Payable.toRat_sum {l : List Decimal} (hl : Payable l)
    (hle : total l ≤ 10 ^ 23) (hsum : Decimal.sum l = .ok c) :
    c.toRat = total l ∧ Held c := by
  obtain ⟨c', hc', hvalue, hheld⟩ := hl.exists_sum hle
  rw [hsum] at hc'
  cases hc'
  exact ⟨hvalue, hheld⟩

-- ========================================================== sums of rates

theorem whole_toRat (a : Decimal) : Whole maxScale a.toRat := by
  rw [toRat_eq]
  exact (whole_div_pow a.scale a.coefficient).mono a.scale_le

/-- Up to one there is room for every place of an amount. -/
theorem exists_add_of_le_one (ha : 0 ≤ a.toRat) (hb : 0 ≤ b.toRat)
    (hle : a.toRat + b.toRat ≤ 1) :
    ∃ c, a.add b = .ok c ∧ c.toRat = a.toRat + b.toRat :=
  (add?_rounds a b).exists_exact ((whole_toRat a).add (whole_toRat b)) le_rfl
    (by rw [abs_of_nonneg (add_nonneg ha hb), maxScale]; linarith) _

theorem exists_foldlM_add_of_le_one {l : List Decimal}
    (hl : ∀ b ∈ l, 0 ≤ b.toRat) (ha : 0 ≤ a.toRat)
    (hle : a.toRat + total l ≤ 1) :
    ∃ c, l.foldlM add a = .ok c ∧ c.toRat = a.toRat + total l := by
  induction l generalizing a with
  | nil => exact ⟨a, rfl, by rw [total_nil, add_zero]⟩
  | cons b l ih =>
      obtain ⟨hb, hrest⟩ := List.forall_mem_cons.1 hl
      have hnonneg := total_nonneg hrest
      rw [total_cons] at hle ⊢
      obtain ⟨a', hab, hvalue⟩ := exists_add_of_le_one ha hb (by linarith)
      obtain ⟨c, hc, hvalue'⟩ := ih hrest (hvalue ▸ add_nonneg ha hb)
        (by linarith)
      refine ⟨c, ?_, by rw [hvalue', hvalue, add_assoc]⟩
      rw [List.foldlM_cons, hab]
      exact hc

/-- Two amounts that come to less than one when they are added do so
exactly. -/
theorem add_le_one_of_lt_one (h : a.add b = .ok c) (hc : c.toRat < 1) :
    a.toRat + b.toRat ≤ 1 := by
  by_contra hlt
  rw [not_le] at hlt
  have hone : nearest 1 ≤ nearest (a.toRat + b.toRat) :=
    nearest_mono hlt.le
  rw [← toRat_add h, ← toRat_one, nearest_toRat, toRat_one] at hone
  linarith

theorem foldlM_add_of_lt_one {l : List Decimal} (hl : ∀ b ∈ l, 0 ≤ b.toRat)
    (ha : 0 ≤ a.toRat) (h : l.foldlM add a = .ok c) (hc : c.toRat < 1) :
    c.toRat = a.toRat + total l := by
  induction l generalizing a with
  | nil =>
      cases h
      rw [total_nil, add_zero]
  | cons b l ih =>
      obtain ⟨hb, hrest⟩ := List.forall_mem_cons.1 hl
      rw [List.foldlM_cons] at h
      cases hab : a.add b with
      | error e =>
          rw [hab] at h
          cases h
      | ok a' =>
          rw [hab] at h
          have hlast := (le_foldlM_add hrest h).trans_lt hc
          obtain ⟨a'', hab', hvalue⟩ := exists_add_of_le_one ha hb
            (add_le_one_of_lt_one hab hlast)
          cases hab.symm.trans hab'
          rw [ih hrest (hvalue ▸ add_nonneg ha hb) h, hvalue, total_cons,
            add_assoc]

/-- Amounts have a sum below one where their total is below one: then
the sum is the total. -/
theorem sum_lt_one_iff {l : List Decimal} (hl : ∀ b ∈ l, 0 ≤ b.toRat) :
    (∃ c, Decimal.sum l = .ok c ∧ c.toRat < 1) ↔ total l < 1 := by
  constructor
  · rintro ⟨c, hc, hlt⟩
    have hexact := foldlM_add_of_lt_one hl toRat_zero.ge hc hlt
    rw [toRat_zero, zero_add] at hexact
    exact hexact ▸ hlt
  · intro hlt
    obtain ⟨c, hc, hexact⟩ := exists_foldlM_add_of_le_one hl toRat_zero.ge
      (by rw [toRat_zero, zero_add]; exact hlt.le)
    rw [toRat_zero, zero_add] at hexact
    exact ⟨c, hc, hexact ▸ hlt⟩

/-- Whole amounts are amounts of a ledger. -/
theorem held_floor (h : 0 ≤ a.toRat) : Held a.floor := by
  refine ⟨?_, ?_⟩ <;> rw [toRat_floor]
  · exact_mod_cast Int.floor_nonneg.2 h
  · exact inLedger_intCast _

theorem payable_floor {α : Type} {l : List α} {f : α → Decimal}
    (h : ∀ x ∈ l, 0 ≤ (f x).toRat) :
    Payable (l.map fun x => (f x).floor) :=
  payable_map fun x hx => held_floor (h x hx)

theorem held_ceil (h : 0 ≤ a.toRat) : Held a.ceil := by
  refine ⟨?_, ?_⟩ <;> rw [toRat_ceil]
  · exact_mod_cast Int.ceil_nonneg h
  · exact inLedger_intCast _

/-- Rounding up adds one at most. -/
theorem toRat_ceil_le_add_one (a : Decimal) :
    a.ceil.toRat ≤ a.toRat + 1 := by
  rw [toRat_ceil]
  exact (Int.ceil_lt_add_one _).le

/-- An amount that is rounded up is not below one rounded down. -/
theorem toRat_floor_le_ceil (a : Decimal) :
    a.floor.toRat ≤ a.ceil.toRat := by
  rw [toRat_floor, toRat_ceil]
  exact_mod_cast Int.floor_le_ceil _

theorem payable_ceil {α : Type} {l : List α} {f : α → Decimal}
    (h : ∀ x ∈ l, 0 ≤ (f x).toRat) :
    Payable (l.map fun x => (f x).ceil) :=
  payable_map fun x hx => held_ceil (h x hx)

end Payroll.Decimal

-- ====================================================== rounding to a ledger

namespace Payroll.Rounding

open Decimal

variable (r : Rounding)

/-- What a value is rounded to. -/
def value (v : ℚ) : ℚ :=
  Tie.awayFromZero.nearest (v * 10 ^ r.places) / 10 ^ r.places

theorem toRat_round (a : Decimal) : (r.round a).toRat = r.value a.toRat :=
  Decimal.toRat_round _ _ a

theorem value_mono : Monotone r.value := by
  intro u v h
  have hpow := (pow_ten_pos' r.places).le
  refine div_le_div_of_nonneg_right ?_ hpow
  exact_mod_cast Tie.awayFromZero.nearest_mono
    (mul_le_mul_of_nonneg_right h hpow)

/-- A whole amount is rounded to itself. -/
theorem value_intCast (n : ℤ) : r.value n = n := by
  have hcast : (n : ℚ) * 10 ^ r.places = ((n * 10 ^ r.places : ℤ) : ℚ) := by
    push_cast
    rfl
  rw [value, hcast, Tie.nearest_intCast, ← hcast,
    mul_div_assoc, div_self (pow_ten_pos' _).ne', mul_one]

/-- A rounded amount lies between the floor and the ceiling of the exact
one, at whatever scale. -/
theorem floor_le_value (v : ℚ) : (⌊v⌋ : ℚ) ≤ r.value v := by
  rw [← r.value_intCast ⌊v⌋]
  exact r.value_mono (Int.floor_le v)

theorem value_le_ceil (v : ℚ) : r.value v ≤ (⌈v⌉ : ℚ) := by
  rw [← r.value_intCast ⌈v⌉]
  exact r.value_mono (Int.le_ceil v)

theorem floor_le_round (a : Decimal) :
    a.floor.toRat ≤ (r.round a).toRat := by
  rw [toRat_floor, toRat_round]
  exact r.floor_le_value _

theorem round_le_ceil (a : Decimal) :
    (r.round a).toRat ≤ a.ceil.toRat := by
  rw [toRat_ceil, toRat_round]
  exact r.value_le_ceil _

theorem round_le_add_one (a : Decimal) :
    (r.round a).toRat ≤ a.toRat + 1 :=
  (r.round_le_ceil a).trans (toRat_ceil_le_add_one a)

/-- What is rounded up exceeds what is rounded by one at most. -/
theorem ceil_le_round_add_one (a : Decimal) :
    a.ceil.toRat ≤ (r.round a).toRat + 1 := by
  have h := r.floor_le_round a
  have hceil : (⌈a.toRat⌉ : ℚ) ≤ ⌊a.toRat⌋ + 1 := by
    exact_mod_cast Int.ceil_le_floor_add_one a.toRat
  rw [toRat_floor] at h
  rw [toRat_ceil]
  linarith

/-- No value loses more than one half. -/
theorem sub_round_le (a : Decimal) :
    a.toRat - (r.round a).toRat ≤ 1 / 2 := by
  have hpow : (1 : ℚ) ≤ 10 ^ r.places := one_le_pow₀ (by norm_num)
  have hnear := (abs_le.1 (Tie.awayFromZero.abs_nearest_sub_le
    (a.toRat * 10 ^ r.places))).1
  rw [toRat_round, value, sub_le_iff_le_add, ← sub_le_iff_le_add',
    le_div_iff₀ (pow_ten_pos' _), sub_mul]
  linarith

/-- No value gains more than half a unit. -/
theorem value_le_add_half (v : ℚ) :
    r.value v ≤ v + 1 / 2 / 10 ^ r.places := by
  have hpow := pow_ten_pos' r.places
  have hnear := (abs_le.1 (Tie.awayFromZero.abs_nearest_sub_le
    (v * 10 ^ r.places))).2
  rw [value, div_le_iff₀ hpow, add_mul, div_mul_cancel₀ _ hpow.ne']
  linarith

theorem value_nonneg {v : ℚ} (h : 0 ≤ v) : 0 ≤ r.value v := by
  have := r.value_mono h
  rwa [← Int.cast_zero, r.value_intCast] at this

/-- What is rounded is a whole number of units. -/
theorem whole_round (a : Decimal) : Whole r.places (r.round a).toRat := by
  rw [toRat_round]
  exact whole_div_pow _ _

/-- What is rounded to four places or fewer can stand in a ledger. -/
theorem inLedger_value (h : r.places ≤ 4) (v : ℚ) :
    InLedger (r.value v) :=
  Whole.mono h (whole_div_pow _ _)

/-- A rounded amount is one of the ledger. -/
theorem held_round (h : r.places ≤ 4) {a : Decimal}
    (ha : 0 ≤ a.toRat) : Held (r.round a) := by
  refine ⟨?_, ?_⟩ <;> rw [toRat_round]
  · exact r.value_nonneg ha
  · exact r.inLedger_value h _

end Payroll.Rounding
