/-
Contributions never eat the gross. The rates of a table leave something
of every unit, so what they take of a gross is less than the gross, and
what they take of a raise is no more than the raise. Ceilings only
lower both.

That much is arithmetic, and a calculation rounds. Where a gross has
four places and a rate has six, each product has ten, and below `10 ^ 15`
there is room for all of them: shares and their totals are exact
(`employeeDue_exact`, `exists_sum_whole`). Rounding to a ledger then
moves each share by half a unit at most, and the total by half a unit
for each scheme (`total_rounded_lt`). The number of schemes sets no
limit to that, yet a sum always comes out: a scheme whose rate is not
zero takes a millionth at least, so there are not many of those.

By scheme the shares are sorted by name. As no name occurs twice, none
is lost, and as no sum is rounded, the order makes no difference
(`exists_sum_byScheme`).
-/
import Payroll.Proofs.Contribution
import Payroll.Rules.Senegal

namespace Payroll

open Decimal

variable {r : ContributionRate} {g f : ℚ}

namespace ContributionRate

-- ======================================================== measured schemes

/-- A scheme whose ceiling has at most four places and both of whose
rates have at most six. -/
structure FullyMeasured (r : ContributionRate) : Prop extends
    r.Measured where
  employerRate : Whole 6 r.employerRate.toRat

theorem FullyMeasured.rate_whole (hm : r.FullyMeasured) (side : Side) :
    Whole 6 (r.rate side).toRat := by
  cases side with
  | employee => exact hm.rate
  | employer => exact hm.employerRate

/-- A share has ten places at most. -/
theorem FullyMeasured.due (hm : r.FullyMeasured) (side : Side)
    (hg : Whole 4 g) : Whole 10 (r.due side g) :=
  ((hm.capped hg).mul (hm.rate_whole side)).nearest

/-- From the ceiling on nothing more is due. -/
theorem due_eq_of_ceiling_le {ceiling : Decimal}
    (hceiling : r.ceiling = some ceiling) (hf : ceiling.toRat ≤ f)
    (hfg : f ≤ g) (side : Side) : r.due side f = r.due side g := by
  have hcapped (v : ℚ) (hv : ceiling.toRat ≤ v) :
      r.capped v = ceiling.toRat := by
    unfold capped
    rw [hceiling]
    exact min_eq_right hv
  unfold ContributionRate.due
  rw [hcapped f hf, hcapped g (hf.trans hfg)]

end ContributionRate

-- ================================================================= totals

namespace ContributionRate

variable {rates : List ContributionRate}

/-- What a table takes of a gross value. -/
def takenOf (rates : List ContributionRate) (g : ℚ) : ℚ :=
  (rates.map fun r => r.employeeDue g).sum

/-- A table takes less than the whole gross. -/
theorem takenOf_lt (hrates : Table rates) (hm : ∀ r ∈ rates, r.Measured)
    (hg : Whole 4 g) (hpos : 0 < g) (hle : g ≤ 10 ^ 18) :
    takenOf rates g < g := by
  have hshares : takenOf rates g
      ≤ (rates.map fun r => g * r.employeeRate.toRat).sum := by
    refine List.sum_le_sum fun r hr => ?_
    have hr' := hrates.proper r hr
    rw [employeeDue_exact hr' (hm r hr) hg hpos.le hle]
    exact mul_le_mul_of_nonneg_right (r.capped_le g) hr'.employee_nonneg
  calc takenOf rates g
      ≤ g * (rates.map (·.employeeRate.toRat)).sum := by
        rwa [List.sum_map_mul_left] at hshares
    _ < g * 1 := mul_lt_mul_of_pos_left hrates.sum_lt hpos
    _ = g := mul_one g

/-- Of a raise it takes no more than the raise. -/
theorem takenOf_sub_le (hrates : Table rates)
    (hm : ∀ r ∈ rates, r.Measured) (hf : Whole 4 f) (hg : Whole 4 g)
    (hnonneg : 0 ≤ f) (hfg : f ≤ g) (hle : g ≤ 10 ^ 18) :
    takenOf rates g - takenOf rates f ≤ g - f := by
  have hshares : takenOf rates g ≤ (rates.map fun r =>
      r.employeeDue f + (g - f) * r.employeeRate.toRat).sum := by
    refine List.sum_le_sum fun r hr => ?_
    have hdue := employeeDue_sub_le (hrates.proper r hr) (hm r hr) hf hg
      hnonneg hfg hle
    linarith
  rw [List.sum_map_add, List.sum_map_mul_left] at hshares
  have hraise := mul_le_of_le_one_right (sub_nonneg.2 hfg)
    hrates.sum_lt.le
  unfold takenOf at hshares ⊢
  linarith

/-- Rounded to a ledger, shares come to half a unit more each. -/
theorem sum_value_lt (rounding : Rounding) (hrates : Table rates)
    (hm : ∀ r ∈ rates, r.Measured) (hg : Whole 4 g) (hpos : 0 < g)
    (hle : g ≤ 10 ^ 18) :
    (rates.map fun r => rounding.value (r.employeeDue g)).sum
      < g + rates.length / 2 / 10 ^ rounding.places := by
  have htaken : takenOf rates g < g := takenOf_lt hrates hm hg hpos hle
  calc (rates.map fun r => rounding.value (r.employeeDue g)).sum
      ≤ takenOf rates g
        + rates.length * (1 / 2 / 10 ^ rounding.places) :=
        sum_map_le_add fun r _ => rounding.value_le_add_half _
    _ < g + rates.length * (1 / 2 / 10 ^ rounding.places) := by
        linarith
    _ = g + rates.length / 2 / 10 ^ rounding.places := by ring

/-- However many schemes there are, rounding takes a million at most. -/
theorem sum_value_le (rounding : Rounding) (hrates : Table rates)
    (hm : ∀ r ∈ rates, r.Measured) (hg : Whole 4 g) (hpos : 0 < g)
    (hle : g ≤ 10 ^ 18) :
    (rates.map fun r => rounding.value (r.employeeDue g)).sum
      ≤ g + 10 ^ 6 := by
  calc (rates.map fun r => rounding.value (r.employeeDue g)).sum
      ≤ (rates.map fun r => (g + 10 ^ 6) * r.employeeRate.toRat).sum :=
        List.sum_le_sum fun r hr => (rounding.value_le_ceil _).trans
          (ceil_employeeDue_le (hrates.proper r hr) (hm r hr) hg hpos.le
            hle)
    _ = (g + 10 ^ 6) * (rates.map (·.employeeRate.toRat)).sum :=
        List.sum_map_mul_left _ _ _
    _ ≤ g + 10 ^ 6 :=
        mul_le_of_le_one_right (by positivity) hrates.sum_lt.le

end ContributionRate

/-- The lines of one scheme on two grosses: the higher one owes no less
on either side, and from the ceiling on it owes the same. -/
structure ContributionLine.Rises (gross : Decimal)
    (l l' : ContributionLine) : Prop where
  scheme : l'.scheme = l.scheme
  le : ∀ side, l.amount side ≤ l'.amount side
  eq : ∀ side ceiling, l.ceiling = some ceiling → ceiling ≤ gross →
    l.amount side ≈ l'.amount side

namespace Contributions

variable {rates : List ContributionRate} {gross gross' : Decimal}
  {c c' : Contributions}

-- ================================================================== lines

theorem ceiling_of_line {l : ContributionLine}
    (h : r.line gross = .ok l) : l.ceiling = r.ceiling := by
  obtain ⟨employee, -, h⟩ := bind_eq_ok.1 h
  obtain ⟨employer, -, h⟩ := bind_eq_ok.1 h
  cases h
  rfl

theorem rises_line (hr : r.Proper) (hle : gross ≤ gross')
    {l l' : ContributionLine} (h : r.line gross = .ok l)
    (h' : r.line gross' = .ok l') : l.Rises gross l' := by
  rw [le_iff_toRat] at hle
  refine ⟨?_, ?_, ?_⟩
  · rw [(ContributionRate.line_eq_ok h).1,
      (ContributionRate.line_eq_ok h').1]
  · intro side
    rw [le_iff_toRat, ContributionRate.toRat_amount h,
      ContributionRate.toRat_amount h']
    exact ContributionRate.due_mono hr side hle
  · intro side ceiling hceiling hreached
    rw [ceiling_of_line h] at hceiling
    rw [le_iff_toRat] at hreached
    rw [equiv_iff_toRat, ContributionRate.toRat_amount h,
      ContributionRate.toRat_amount h']
    exact ContributionRate.due_eq_of_ceiling_le hceiling hreached hle side

theorem rises_compute (hrates : ∀ r ∈ rates, r.Proper)
    (hle : gross ≤ gross') (h : compute gross rates = .ok c)
    (h' : compute gross' rates = .ok c') :
    List.Forall₂ (ContributionLine.Rises gross) c.lines c'.lines := by
  obtain ⟨-, hlines⟩ := compute_eq_ok.1 h
  obtain ⟨-, hlines'⟩ := compute_eq_ok.1 h'
  clear h h'
  generalize c.lines = lines at hlines ⊢
  generalize c'.lines = lines' at hlines' ⊢
  induction hlines generalizing lines' with
  | nil =>
      cases hlines'
      exact .nil
  | cons hline _ ih =>
      cases hlines' with
      | cons hline' hrest' =>
          obtain ⟨hr, hrest⟩ := List.forall_mem_cons.1 hrates
          exact .cons (rises_line hr hle hline hline') (ih hrest _ hrest')

-- ============================================================== by scheme

/-- The shares of a side add up to the same by scheme and line by
line. -/
theorem exists_sum_byScheme {f : ContributionLine → Decimal} {p : ℕ}
    (hp : p ≤ maxScale) (hdistinct : (c.lines.map (·.scheme)).Nodup)
    (hf : ∀ l ∈ c.lines, 0 ≤ (f l).toRat ∧ Whole p (f l).toRat)
    {t : Decimal} (ht : Decimal.sum (c.lines.map f) = .ok t)
    (hle : t.toRat * 10 ^ p ≤ 10 ^ 27) :
    ∃ s, Decimal.sum (c.byScheme f).values = .ok s ∧ s ≈ t := by
  have hlines : ∀ a ∈ c.lines.map f, 0 ≤ a.toRat ∧ Whole p a.toRat :=
    List.forall_mem_map.2 hf
  have hperm : (c.byScheme f).values.Perm (c.lines.map f) := by
    rw [← map_fst_byScheme (f := f)] at hdistinct
    have h := Named.values_ofList_perm hdistinct
    rwa [List.map_map] at h
  have hexact := foldlM_add_whole hp hlines toRat_zero.ge
    (by rw [toRat_zero]; exact whole_zero p) ht hle
  rw [toRat_zero, zero_add] at hexact
  have htotal : total (c.byScheme f).values = t.toRat := by
    rw [hexact, total_perm hperm]
  obtain ⟨s, hs, hvalue⟩ := exists_sum_whole hp
    (fun a ha => hlines a (hperm.mem_iff.1 ha)) (by rw [htotal]; linarith)
  refine ⟨s, hs, ?_⟩
  rw [equiv_iff_toRat, hvalue, htotal]

/-- The shares by scheme: every scheme has one on either side, and they
add up to the totals. The employer's total is one to speak of only while
it is below `10 ^ 15`, as nothing bounds the employer's rates. -/
structure Itemizes (c : Contributions) (rates : List ContributionRate) :
    Prop where
  employee_names :
    c.employeeByScheme.names.Perm (rates.map (·.scheme))
  employer_names :
    c.employerByScheme.names.Perm (rates.map (·.scheme))
  employee_sum : ∃ t s, c.employeeTotal = .ok t
    ∧ Decimal.sum c.employeeByScheme.values = .ok s ∧ s ≈ t
  employer_sum : ∀ t, c.employerTotal = .ok t → t.toRat < 10 ^ 15 →
    ∃ s, Decimal.sum c.employerByScheme.values = .ok s ∧ s ≈ t
  employer_total : total (c.lines.map (·.employerAmount)) < 10 ^ 15 →
    ∃ t, c.employerTotal = .ok t ∧ t.toRat < 10 ^ 15

theorem names_byScheme_perm {f : ContributionLine → Decimal}
    (hrates : ContributionRate.Table rates)
    (hschemes : c.lines.map (·.scheme) = rates.map (·.scheme)) :
    (c.byScheme f).names.Perm (rates.map (·.scheme)) := by
  have hdistinct := hrates.distinct
  rw [← hschemes, ← map_fst_byScheme (f := f)] at hdistinct ⊢
  exact (Named.entries_ofList_perm hdistinct).map (·.1)

/-- Shares of a few places are itemized, rounded or not. -/
theorem itemizes_of_whole {p : ℕ} (hp : p ≤ 10)
    (hrates : ContributionRate.Table rates)
    (hschemes : c.lines.map (·.scheme) = rates.map (·.scheme))
    (hwhole : ∀ l ∈ c.lines, ∀ side,
      0 ≤ (l.amount side).toRat ∧ Whole p (l.amount side).toRat)
    {t : Decimal} (ht : c.employeeTotal = .ok t)
    (hle : t.toRat ≤ 10 ^ 16) : c.Itemizes rates := by
  have hplaces : p ≤ maxScale := hp.trans (by decide)
  have hpow : (10 : ℚ) ^ p ≤ 10 ^ 10 :=
    pow_le_pow_right₀ (by norm_num) hp
  have hroom {v : ℚ} (hv : v ≤ 10 ^ 16) : v * 10 ^ p ≤ 10 ^ 27 := by
    calc v * 10 ^ p ≤ 10 ^ 16 * 10 ^ p :=
          mul_le_mul_of_nonneg_right hv (pow_ten_pos' p).le
      _ ≤ 10 ^ 16 * 10 ^ 10 := by gcongr
      _ ≤ 10 ^ 27 := by norm_num
  have hdistinct : (c.lines.map (·.scheme)).Nodup := by
    rw [hschemes]
    exact hrates.distinct
  refine ⟨names_byScheme_perm hrates hschemes,
    names_byScheme_perm hrates hschemes, ?_, ?_, ?_⟩
  · obtain ⟨s, hs, heq⟩ := exists_sum_byScheme hplaces hdistinct
      (fun l hl => hwhole l hl .employee) ht (hroom hle)
    exact ⟨t, s, ht, hs, heq⟩
  · intro u hu hlt
    exact exists_sum_byScheme hplaces hdistinct
      (fun l hl => hwhole l hl .employer) hu (hroom (by linarith))
  · intro hlt
    have hnarrow := hroom (v := total (c.lines.map (·.employerAmount)))
      (by linarith)
    obtain ⟨u, hu, hvalue⟩ := exists_sum_whole hplaces
      (List.forall_mem_map.2 fun l hl => hwhole l hl .employer)
      (hnarrow.trans (by norm_num))
    exact ⟨u, hu, hvalue ▸ hlt⟩

-- ====================================================== within the gross

variable (hrates : ContributionRate.Table rates)
  (hm : ∀ r ∈ rates, r.FullyMeasured) (hg : Whole 4 gross.toRat)

include hrates hm hg

theorem whole_amount (h : compute gross rates = .ok c) :
    ∀ l ∈ c.lines, ∀ side,
      0 ≤ (l.amount side).toRat ∧ Whole 10 (l.amount side).toRat := by
  intro l hl side
  have hnonneg := (compute_eq_ok.1 h).1
  exact forall_amount side (P := fun v => 0 ≤ v ∧ Whole 10 v) (fun r hr =>
    ⟨ContributionRate.due_nonneg (hrates.proper r hr) side hnonneg,
      (hm r hr).due side hg⟩) h l hl

variable (hpos : 0 < gross.toRat) (hlt : gross.toRat < 10 ^ 15)

include hpos hlt

/-- Before rounding, the employee's total is exact. -/
theorem exists_employeeTotal (h : compute gross rates = .ok c) :
    ∃ t, c.employeeTotal = .ok t
      ∧ t.toRat = ContributionRate.takenOf rates gross.toRat := by
  have htotal : total (c.lines.map (·.employeeAmount))
      = ContributionRate.takenOf rates gross.toRat := by
    unfold ContributionRate.takenOf
    rw [← map_employee (fun v => v) h, total, List.map_map]
    rfl
  have htaken : ContributionRate.takenOf rates gross.toRat < gross.toRat :=
    ContributionRate.takenOf_lt hrates
      (fun r hr => (hm r hr).toMeasured) hg hpos (by linarith)
  rw [← htotal] at htaken ⊢
  exact exists_sum_whole (p := 10) (by decide)
    (List.forall_mem_map.2 fun l hl =>
      whole_amount hrates hm hg h l hl .employee) (by linarith)

/-- Rounded to a ledger, it exceeds the gross by less than half a unit
for each scheme. -/
theorem exists_employeeTotal_rounded {rounding : Rounding}
    (hplaces : rounding.places ≤ 4) (h : compute gross rates = .ok c) :
    ∃ t, (c.rounded rounding).employeeTotal = .ok t
      ∧ t.toRat < gross.toRat + rates.length / 2 / 10 ^ rounding.places
      ∧ t.toRat ≤ 10 ^ 16 := by
  have hmeasured : ∀ r ∈ rates, r.Measured :=
    fun r hr => (hm r hr).toMeasured
  have hunits := ContributionRate.sum_value_lt rounding hrates hmeasured
    hg hpos (by linarith)
  have hmillion := ContributionRate.sum_value_le rounding hrates hmeasured
    hg hpos (by linarith)
  rw [← total_employee_rounded rounding h] at hunits hmillion
  obtain ⟨t, ht, hvalue, -⟩ :=
    (payable_rounded hplaces hrates.proper h).exists_sum (by linarith)
  rw [← hvalue] at hunits hmillion
  exact ⟨t, ht, hunits, by linarith⟩

theorem itemizes_compute (h : compute gross rates = .ok c) :
    c.Itemizes rates := by
  obtain ⟨t, ht, hvalue⟩ :=
    exists_employeeTotal hrates hm hg hpos hlt h
  have htaken : ContributionRate.takenOf rates gross.toRat < gross.toRat :=
    ContributionRate.takenOf_lt hrates
      (fun r hr => (hm r hr).toMeasured) hg hpos (by linarith)
  exact itemizes_of_whole le_rfl hrates (map_scheme h)
    (whole_amount hrates hm hg h) ht (by linarith)

theorem itemizes_rounded {rounding : Rounding}
    (hplaces : rounding.places ≤ 4) (h : compute gross rates = .ok c) :
    (c.rounded rounding).Itemizes rates := by
  obtain ⟨t, ht, -, hle⟩ :=
    exists_employeeTotal_rounded hrates hm hg hpos hlt hplaces h
  refine itemizes_of_whole (p := 4) (by decide) hrates
    ((scheme_rounded c rounding).trans (map_scheme h)) ?_ ht hle
  intro l' hl' side
  obtain ⟨l, hl, rfl⟩ := List.mem_map.1 hl'
  have hheld := rounding.held_round hplaces
    (whole_amount hrates hm hg h l hl side).1
  cases side with
  | employee => exact ⟨hheld.nonneg, hheld.inLedger⟩
  | employer => exact ⟨hheld.nonneg, hheld.inLedger⟩

omit hrates hm hg hpos hlt in
/-- Contributions never eat the gross. Of two grosses that are not zero
the employee's shares take less than the lower one, of the difference no
more than that, and scheme by scheme the higher one owes no less. After
rounding the total stays below the gross but for half a unit per scheme;
before and after it the shares by scheme are those of the table. -/
theorem contributions_within_gross
    (hrates : ContributionRate.checkAll rates = .ok ())
    (hm : ∀ r ∈ rates, r.FullyMeasured) (hpos : .zero < gross)
    (hle : gross ≤ gross') (hlt : gross'.toRat < 10 ^ 15)
    (hg : Whole 4 gross.toRat) (hg' : Whole 4 gross'.toRat) :
    ∃ c c' t t', compute gross rates = .ok c
      ∧ compute gross' rates = .ok c'
      ∧ c.employeeTotal = .ok t ∧ c'.employeeTotal = .ok t'
      ∧ t < gross ∧ t'.toRat - t.toRat ≤ gross'.toRat - gross.toRat
      ∧ List.Forall₂ (ContributionLine.Rises gross) c.lines c'.lines
      ∧ c.Itemizes rates
      ∧ ∀ rounding : Rounding, rounding.places ≤ 4 →
        (c.rounded rounding).Itemizes rates
          ∧ ∃ t, (c.rounded rounding).employeeTotal = .ok t
            ∧ t.toRat
              < gross.toRat + rates.length / 2 / 10 ^ rounding.places := by
  have htable := ContributionRate.checkAll_eq_ok.1 hrates
  have hmeasured : ∀ r ∈ rates, r.Measured :=
    fun r hr => (hm r hr).toMeasured
  rw [lt_iff_toRat, toRat_zero] at hpos
  have hvalues := le_iff_toRat.1 hle
  have hpos' := hpos.trans_le hvalues
  have hlt' := hvalues.trans_lt hlt
  obtain ⟨c, hc⟩ := exists_compute htable.proper hpos.le
  obtain ⟨c', hc'⟩ := exists_compute htable.proper hpos'.le
  obtain ⟨t, ht, hvalue⟩ :=
    exists_employeeTotal htable hm hg hpos hlt' hc
  obtain ⟨t', ht', hvalue'⟩ :=
    exists_employeeTotal htable hm hg' hpos' hlt hc'
  refine ⟨c, c', t, t', hc, hc', ht, ht', ?_, ?_,
    rises_compute htable.proper hle hc hc',
    itemizes_compute htable hm hg hpos hlt' hc, ?_⟩
  · rw [lt_iff_toRat, hvalue]
    exact ContributionRate.takenOf_lt htable hmeasured hg hpos
      (by linarith)
  · rw [hvalue, hvalue']
    exact ContributionRate.takenOf_sub_le htable hmeasured hg hg' hpos.le
      hvalues (by linarith)
  · intro rounding hplaces
    obtain ⟨u, hu, hunits, -⟩ :=
      exists_employeeTotal_rounded htable hm hg hpos hlt' hplaces hc
    exact ⟨itemizes_rounded htable hm hg hpos hlt' hplaces hc, u, hu,
      hunits⟩

end Contributions

namespace Senegal

theorem fullyMeasured_contributions :
    ∀ r ∈ contributions, r.FullyMeasured := by
  have h : ∀ r ∈ contributions, Whole 6 r.employeeRate.toRat
      ∧ Whole 6 r.employerRate.toRat
      ∧ (r.ceiling.all fun m => decide (Whole 4 m.toRat)) = true := by
    decide +kernel
  intro r hr
  obtain ⟨hemployee, hemployer, hceiling⟩ := h r hr
  refine ⟨⟨hemployee, fun m hm => ?_⟩, hemployer⟩
  rw [hm] at hceiling
  exact of_decide_eq_true hceiling

/-- On either side of the pension ceiling. -/
theorem contributions_within_gross_manager :
    ∃ c c' t t', Contributions.compute (.of 40000025 2) contributions = .ok c
      ∧ Contributions.compute (.of 600000 0) contributions = .ok c'
      ∧ c.employeeTotal = .ok t ∧ c'.employeeTotal = .ok t'
      ∧ t < .of 40000025 2 ∧ t'.toRat - t.toRat ≤ 19999975 / 100
      ∧ c.Itemizes contributions := by
  obtain ⟨c, c', t, t', hc, hc', ht, ht', hlt, hle, -, hitems, -⟩ :=
    Contributions.contributions_within_gross
      (show ContributionRate.checkAll contributions = .ok () by
        decide +kernel)
      fullyMeasured_contributions
      (show .zero < Decimal.of 40000025 2 by decide +kernel)
      (show _ ≤ Decimal.of 600000 0 by decide +kernel)
      (by decide +kernel) (by decide +kernel) (by decide +kernel)
  have hraise : (Decimal.of 600000 0).toRat - (Decimal.of 40000025 2).toRat
      = 19999975 / 100 := by
    decide +kernel
  exact ⟨c, c', t, t', hc, hc', ht, ht', hlt, hraise ▸ hle, hitems⟩

end Senegal

end Payroll
