/-
What is earned with overtime. The law knows the pay of an hour as an
exact quotient and the pay of overtime as an exact product of it
(`Request.overtimeDue`). The calculation rounds the quotient and both
products of every line, and the estimate rounds each line up. Nothing
of this adds more than two and a half units to a line, apart from what
the rounded hourly rate itself is off by.

The lemmas here go forwards: they say that each step has a result. A
product needs room, and the room comes from the exact pay of all lines,
of which no line and no product on the way to one is more than a part.
-/
import Mathlib.Algebra.BigOperators.Ring.List
import Payroll.Proofs.Decimal.Size
import Payroll.Proofs.Overtime
import Payroll.Request
import Payroll.Rules.Snapshot

namespace Payroll

open Decimal

/-- The hours that are paid of those that were worked. -/
def OvertimeRule.paid (rule : OvertimeRule) (worked : ℚ) : ℚ :=
  match rule.cap with
  | some cap => min worked cap.toRat
  | none => worked

/-- A rule that pays no less than an hour and no more than two. -/
structure OvertimeRule.UpToDouble (rule : OvertimeRule) : Prop extends
    rule.Proper where
  one_le_multiplier : 1 ≤ rule.multiplier.toRat
  multiplier_le_two : rule.multiplier.toRat ≤ 2

/-- The exact pay of the hours of a category at an hourly rate. -/
def Overtime.due (rules : List OvertimeRule) (rate : ℚ)
    (e : Category × Decimal) : ℚ :=
  match OvertimeRule.find? rules e.1 with
  | some rule => rule.paid e.2.toRat * rate * rule.multiplier.toRat
  | none => 0

/-- The exact overtime pay of a request. -/
def Request.overtimeDue (r : Request) (s : Snapshot) : ℚ :=
  (r.overtimeHours.entries.map (Overtime.due s.overtime
    (r.baseSalary.toRat / s.monthlyHours.toRat))).sum

theorem OvertimeRule.toRat_paidHours (rule : OvertimeRule) (hours : Decimal) :
    (rule.paidHours hours).toRat = rule.paid hours.toRat := by
  unfold paidHours paid
  cases rule.cap with
  | some cap => exact toRat_min hours cap
  | none => rfl

theorem OvertimeRule.Proper.paid_nonneg {rule : OvertimeRule}
    (hrule : rule.Proper) {worked : ℚ} (h : 0 ≤ worked) :
    0 ≤ rule.paid worked := by
  unfold paid
  split
  · rename_i cap hcap
    exact le_min h (hrule.cap_nonneg cap hcap)
  · exact h

namespace Overtime

variable {rules : List OvertimeRule} {hourlyRate : Decimal} {rate : ℚ}

theorem due_of_find {c : Category} {worked : Decimal}
    {rule : OvertimeRule} (h : OvertimeRule.find? rules c = some rule) :
    due rules rate (c, worked)
      = rule.paid worked.toRat * rate * rule.multiplier.toRat := by
  unfold due
  rw [h]

theorem due_nonneg (hrules : ∀ rule ∈ rules, rule.Proper)
    (hrate : 0 ≤ rate) {e : Category × Decimal} (h : 0 ≤ e.2.toRat) :
    0 ≤ due rules rate e := by
  unfold due
  split
  · rename_i rule hrule
    have hproper := hrules rule (OvertimeRule.find?_mem hrule)
    exact mul_nonneg (mul_nonneg (hproper.paid_nonneg h) hrate)
      hproper.multiplier_pos.le
  · exact le_rfl

/-- A rate that is higher by a share makes every pay higher by it. -/
theorem due_le_mul (hrules : ∀ rule ∈ rules, rule.Proper) {rate' k : ℚ}
    (hle : rate' ≤ k * rate) {e : Category × Decimal}
    (h : 0 ≤ e.2.toRat) : due rules rate' e ≤ k * due rules rate e := by
  unfold due
  split
  · rename_i rule hrule
    have hproper := hrules rule (OvertimeRule.find?_mem hrule)
    have hpaid := mul_le_mul_of_nonneg_left hle (hproper.paid_nonneg h)
    calc rule.paid e.2.toRat * rate' * rule.multiplier.toRat
        ≤ rule.paid e.2.toRat * (k * rate) * rule.multiplier.toRat :=
          mul_le_mul_of_nonneg_right hpaid hproper.multiplier_pos.le
      _ = k * (rule.paid e.2.toRat * rate * rule.multiplier.toRat) := by
          ring
  · rw [mul_zero]

-- ================================================================ a line

/-- The products of a line add one and a half units at most. -/
theorem exists_amount {rule : OvertimeRule} (hrule : rule.UpToDouble)
    {paid : Decimal} (hpaid : 0 ≤ paid.toRat)
    (hrate : 0 ≤ hourlyRate.toRat)
    (hle : paid.toRat * hourlyRate.toRat * rule.multiplier.toRat
      ≤ 10 ^ 27) :
    ∃ base amount, paid.mul hourlyRate = .ok base
      ∧ base.mul rule.multiplier = .ok amount ∧ 0 ≤ amount.toRat
      ∧ amount.toRat ≤ paid.toRat * hourlyRate.toRat
        * rule.multiplier.toRat + 3 / 2 := by
  have hone := hrule.one_le_multiplier
  have htwo := hrule.multiplier_le_two
  have hproduct := mul_nonneg hpaid hrate
  have hpart := le_mul_of_one_le_right hproduct hone
  obtain ⟨base, hbase, hnonneg, hbasele⟩ :=
    exists_mul_near hpaid hrate (by linarith)
  have hscaled : base.toRat * rule.multiplier.toRat
      ≤ paid.toRat * hourlyRate.toRat * rule.multiplier.toRat + 1 := by
    calc base.toRat * rule.multiplier.toRat
        ≤ (paid.toRat * hourlyRate.toRat + 1 / 2)
            * rule.multiplier.toRat := by gcongr
      _ ≤ _ := by linarith
  obtain ⟨amount, hamount, hnonneg', hamountle⟩ :=
    exists_mul_near hnonneg (by linarith : 0 ≤ rule.multiplier.toRat)
      (by linarith)
  exact ⟨base, amount, hbase, hamount, hnonneg', by linarith⟩

/-- Hours with a rule have a line, or none if there are no hours. -/
theorem exists_line (hrules : ∀ rule ∈ rules, rule.UpToDouble)
    {c : Category} {worked : Decimal}
    (hfound : ∃ rule, OvertimeRule.find? rules c = some rule)
    (hworked : 0 ≤ worked.toRat) (hrate : 0 ≤ hourlyRate.toRat)
    (hle : due rules hourlyRate.toRat (c, worked) ≤ 10 ^ 27) :
    ∃ o, line hourlyRate rules c worked = .ok o
      ∧ ∀ l ∈ o, 0 ≤ l.1.amount.toRat ∧ l.1.amount.toRat
        ≤ due rules hourlyRate.toRat (c, worked) + 3 / 2 := by
  obtain ⟨rule, hfind⟩ := hfound
  have hrule := hrules rule (OvertimeRule.find?_mem hfind)
  rw [due_of_find hfind] at hle ⊢
  rcases hworked.eq_or_lt with hzero | hpos
  · exact ⟨none, line_eq_ok.2 (.inl ⟨hzero.symm, rfl⟩),
      fun l hl => absurd hl (Option.not_mem_none l)⟩
  · have hnonneg := hrule.toProper.paid_nonneg hworked
    rw [← OvertimeRule.toRat_paidHours] at hle hnonneg ⊢
    obtain ⟨base, amount, hbase, hamount, hamountpos, hamountle⟩ :=
      exists_amount hrule hnonneg hrate hle
    obtain ⟨x, hx, hplace⟩ := exists_place hrule.toProper hpos hfind
      (OvertimeRule.lineFor_eq_ok.2 ⟨base, amount, hbase, hamount, rfl⟩)
    refine ⟨x, hx, fun e he => ?_⟩
    rw [hplace e he]
    exact ⟨hamountpos, hamountle⟩

-- ============================================================= all lines

/-- The lines of some entries, their amounts rounded up within a bound
for each entry. -/
theorem exists_found {entries : List (Category × Decimal)}
    (bound : Category × Decimal → ℚ)
    (h : ∀ e ∈ entries, ∃ o, line hourlyRate rules e.1 e.2 = .ok o
      ∧ ∀ l ∈ o, l.1.amount.ceil.toRat ≤ bound e)
    (hbound : ∀ e ∈ entries, 0 ≤ bound e) :
    ∃ found, entries.mapM (fun e => line hourlyRate rules e.1 e.2)
        = .ok found
      ∧ Decimal.total
          (((found.filterMap id).map (·.1)).map (·.amount.ceil))
        ≤ (entries.map bound).sum := by
  induction entries with
  | nil => exact ⟨[], rfl, le_rfl⟩
  | cons e entries ih =>
      obtain ⟨o, ho, hle⟩ := h e List.mem_cons_self
      have hnonneg := hbound e List.mem_cons_self
      obtain ⟨found, hfound, htotal⟩ := ih
        (fun e' he' => h e' (List.mem_cons_of_mem e he'))
        fun e' he' => hbound e' (List.mem_cons_of_mem e he')
      refine ⟨o :: found, ?_, ?_⟩
      · rw [List.mapM_cons, ho, ok_bind, hfound]
        rfl
      · rw [List.map_cons, List.sum_cons]
        cases o with
        | none =>
            rw [List.filterMap_cons_none rfl]
            linarith
        | some l =>
            rw [List.filterMap_cons_some (f := id) rfl]
            simp only [List.map_cons, total_cons]
            linarith [hle l rfl]

/-- A few lines of such amounts have a sum. -/
theorem exists_sum_amount {lines : List OvertimeLine}
    (hnonneg : ∀ l ∈ lines, 0 ≤ l.amount.toRat)
    (hcount : lines.length ≤ 4)
    (hle : Decimal.total (lines.map (·.amount.ceil)) ≤ 10 ^ 27) :
    ∃ sum, Decimal.sum (lines.map (·.amount)) = .ok sum := by
  have hpart : ∀ l ∈ lines, |l.amount.toRat| ≤ 10 ^ 27 := by
    intro l hl
    have hceil : (l.amount.ceil).toRat
        ≤ Decimal.total (lines.map (·.amount.ceil)) := by
      refine List.single_le_sum ?_ _
        (List.mem_map_of_mem (List.mem_map_of_mem hl))
      intro v hv
      obtain ⟨a, ha, rfl⟩ := List.mem_map.1 hv
      exact (payable_ceil hnonneg a ha).nonneg
    rw [toRat_ceil] at hceil
    rw [abs_of_nonneg (hnonneg l hl)]
    exact (Int.le_ceil _).trans (hceil.trans hle)
  have hends := ends_sum (S := True) (m := 10 ^ 27) (k := 4 * 10 ^ 27)
    (l := lines.map (·.amount))
    (fun a ha _ => by
      obtain ⟨l, hl, rfl⟩ := List.mem_map.1 ha
      exact_mod_cast hpart l hl)
    fun _ => by
      rw [List.length_map]
      omega
  obtain ⟨sum, hsum, -⟩ := hends.exists_ok
  exact ⟨sum, hsum⟩

/-- Hours that all have a rule have lines. Rounded up these exceed the
exact pay by two and a half units each. -/
theorem exists_compute (hrules : ∀ rule ∈ rules, rule.UpToDouble)
    {hours : ByCategory Decimal}
    (hfound : ∀ e ∈ hours.entries, ∃ rule,
      OvertimeRule.find? rules e.1 = some rule)
    (hhours : ∀ e ∈ hours.entries, 0 ≤ e.2.toRat)
    (hrate : 0 ≤ hourlyRate.toRat)
    (hle : (hours.entries.map (due rules hourlyRate.toRat)).sum
      ≤ 10 ^ 26) :
    ∃ o, compute hours hourlyRate rules = .ok o
      ∧ Decimal.total (o.lines.map (·.amount.ceil))
        ≤ (hours.entries.map (due rules hourlyRate.toRat)).sum + 10 := by
  have hproper : ∀ rule ∈ rules, rule.Proper :=
    fun rule hrule => (hrules rule hrule).toProper
  have hdue : ∀ e ∈ hours.entries, 0 ≤ due rules hourlyRate.toRat e :=
    fun e he => due_nonneg hproper hrate (hhours e he)
  have hpart : ∀ e ∈ hours.entries,
      due rules hourlyRate.toRat e ≤ 10 ^ 27 := by
    intro e he
    have := List.single_le_sum (by
      intro v hv
      obtain ⟨e', he', rfl⟩ := List.mem_map.1 hv
      exact hdue e' he') _ (List.mem_map_of_mem he)
    linarith
  have hline : ∀ e ∈ hours.entries, ∃ o,
      line hourlyRate rules e.1 e.2 = .ok o ∧ ∀ l ∈ o,
        l.1.amount.ceil.toRat ≤ due rules hourlyRate.toRat e + 5 / 2 := by
    intro e he
    obtain ⟨o, ho, hl⟩ := exists_line hrules (hfound e he)
      (hhours e he) hrate (hpart e he)
    refine ⟨o, ho, fun l hmem => ?_⟩
    linarith [(hl l hmem).2, toRat_ceil_le_add_one l.1.amount]
  obtain ⟨found, hmap, htotal⟩ := exists_found
    (fun e => due rules hourlyRate.toRat e + 5 / 2) hline
    fun e he => by linarith [hdue e he]
  have hcount : hours.entries.length ≤ 4 := by
    have := hours.map_entries_sublist.length_le
    rwa [List.length_map] at this
  have hunits := sum_map_le_add (l := hours.entries) (d := 5 / 2)
    (f := fun e => due rules hourlyRate.toRat e + 5 / 2) fun e _ => le_rfl
  have hcount' : (hours.entries.length : ℚ) ≤ 4 := by
    exact_mod_cast hcount
  have hforall := mapM_eq_ok.1 hmap
  obtain ⟨hnonneg, hcategories⟩ := lines_of_entries hproper hrate hforall
  have hlines : ((found.filterMap id).map (·.1)).length ≤ 4 := by
    have := hcategories.length_le
    simp only [List.length_map] at this ⊢
    exact this.trans hcount
  obtain ⟨sum, hsum⟩ := exists_sum_amount hnonneg hlines (by linarith)
  have hneg : ¬hourlyRate < .zero := by
    rw [lt_iff_toRat, toRat_zero, not_lt]
    exact hrate
  refine ⟨⟨(found.filterMap id).map (·.1), sum,
    (found.filterMap id).filterMap (·.2)⟩, ?_, by linarith⟩
  unfold compute
  rw [if_neg hneg, hmap, ok_bind]
  simp only [hsum, liftM_ok, ok_bind]
  rfl

end Overtime

-- ============================================================ a request

/-- What a snapshot asks of overtime hours: a rule for each category
and no negative hours. -/
structure Request.Worked (r : Request) (s : Snapshot) : Prop where
  rule : ∀ e ∈ r.overtimeHours.entries, ∃ rule,
    OvertimeRule.find? s.overtime e.1 = some rule
  nonneg : ∀ e ∈ r.overtimeHours.entries, 0 ≤ e.2.toRat

theorem Request.overtimeDue_nonneg {r : Request} {s : Snapshot}
    (hrules : ∀ rule ∈ s.overtime, rule.Proper)
    (hhours : r.Worked s)
    (hrate : 0 ≤ r.baseSalary.toRat / s.monthlyHours.toRat) :
    0 ≤ r.overtimeDue s := by
  refine List.sum_nonneg fun v hv => ?_
  obtain ⟨e, he, rfl⟩ := List.mem_map.1 hv
  exact Overtime.due_nonneg hrules hrate (hhours.nonneg e he)

/-- Where an hour is worth one unit at least, rounding the hourly rate
cannot double the pay. -/
theorem Request.exists_overtime {r : Request} {s : Snapshot}
    (hrules : ∀ rule ∈ s.overtime, rule.UpToDouble)
    (hhours : r.Worked s) (hmonth : 0 < s.monthlyHours.toRat)
    (hrate : 1 ≤ r.baseSalary.toRat / s.monthlyHours.toRat)
    (hrate' : r.baseSalary.toRat / s.monthlyHours.toRat ≤ 10 ^ 28)
    (hle : r.overtimeDue s ≤ 10 ^ 25) :
    ∃ hourlyRate o, s.hourlyRate r.baseSalary = .ok hourlyRate
      ∧ Overtime.compute r.overtimeHours hourlyRate s.overtime = .ok o
      ∧ total (o.lines.map (·.amount.ceil))
        ≤ 2 * r.overtimeDue s + 10 := by
  have hbase : 0 ≤ r.baseSalary.toRat := by
    rw [le_div_iff₀ hmonth] at hrate
    linarith
  obtain ⟨hourlyRate, hhourly, hnonneg, hnear⟩ :=
    exists_div_near hbase hmonth hrate'
  have hdue : (r.overtimeHours.entries.map
      (Overtime.due s.overtime hourlyRate.toRat)).sum
        ≤ 2 * r.overtimeDue s := by
    rw [Request.overtimeDue, ← List.sum_map_mul_left]
    exact List.sum_le_sum fun e he => Overtime.due_le_mul
      (fun rule hrule => (hrules rule hrule).toProper) (by linarith)
      (hhours.nonneg e he)
  obtain ⟨o, ho, htotal⟩ := Overtime.exists_compute hrules hhours.rule
    hhours.nonneg hnonneg (by linarith)
  exact ⟨hourlyRate, o, hhourly, ho, by linarith⟩

end Payroll
