/-
What contributions come to. A share is the gross, capped, times a rate,
and rounded twice: by the multiplication and to the ledger. Each of
these keeps the order, so a higher gross never owes a smaller share
(`employeeDue_mono`).

A table that passes its check has schemes that pass it one by one, each
under a name of its own, and exact rates that leave something of the
salary (`checkAll_eq_ok`).

`compute` builds lines, but what is made of them by rounding, by taking
floors or by taking ceilings is a list of values along the rates
(`map_employee`). Two such lists are compared rate by rate, whichever
gross each of them belongs to.
-/
import Mathlib.Algebra.BigOperators.Ring.List
import Payroll.Contribution.Basic
import Payroll.Proofs.Decimal.Ledger
import Payroll.Proofs.Entries
import Payroll.Proofs.Sequencing

namespace Payroll

open Decimal

/-- The share of one side. -/
def ContributionLine.amount (l : ContributionLine) : Side → Decimal
  | .employee => l.employeeAmount
  | .employer => l.employerAmount

namespace ContributionRate

-- ======================================================== checked schemes

/-- A scheme with rates between 0 and 1 and a positive ceiling. -/
structure Proper (r : ContributionRate) : Prop where
  employee_nonneg : 0 ≤ r.employeeRate.toRat
  employee_le_one : r.employeeRate.toRat ≤ 1
  employer_nonneg : 0 ≤ r.employerRate.toRat
  employer_le_one : r.employerRate.toRat ≤ 1
  ceiling_pos : ∀ c, r.ceiling = some c → 0 < c.toRat

/-- A scheme with a name and proper rates. -/
def Acceptable (r : ContributionRate) : Prop :=
  Text.isBlankText r.scheme = false ∧ r.Proper

theorem check_eq_ok {seen : List String} {r : ContributionRate} :
    r.check seen = .ok () ↔ r.Acceptable ∧ r.scheme ∉ seen := by
  unfold check
  simp only [ite_error_eq_ok, not_or, lt_iff_toRat, not_lt, toRat_zero,
    toRat_one, Bool.not_eq_true]
  constructor
  · rintro ⟨hnamed, hnew, ⟨h₁, h₂⟩, ⟨h₃, h₄⟩, hceiling⟩
    refine ⟨⟨hnamed, h₁, h₂, h₃, h₄, fun c hc => ?_⟩, hnew⟩
    simp only [hc, ite_error_eq_ok, le_iff_toRat, toRat_zero] at hceiling
    exact not_le.1 hceiling.1
  · rintro ⟨⟨hnamed, h₁, h₂, h₃, h₄, hceiling⟩, hnew⟩
    refine ⟨hnamed, hnew, ⟨h₁, h₂⟩, ⟨h₃, h₄⟩, ?_⟩
    split
    · rename_i c hc
      rw [ite_error_eq_ok, le_iff_toRat, toRat_zero, not_le]
      exact ⟨hceiling c hc, rfl⟩
    · rfl

theorem checkEach_eq_ok {seen : List String}
    {rates : List ContributionRate} : checkEach seen rates = .ok () ↔
      (∀ r ∈ rates, r.Acceptable) ∧ Fresh (·.scheme) seen rates := by
  induction rates generalizing seen with
  | nil => exact iff_of_true rfl ⟨nofun, fresh_nil⟩
  | cons r rest ih =>
      rw [checkEach, check_bind_eq_ok, check_eq_ok, ih,
        List.forall_mem_cons, fresh_cons]
      exact and_and_and_comm

/-- A table that leaves something of the salary: its schemes are
acceptable and told apart by name, and the employee's rates stay below
one. -/
structure Table (rates : List ContributionRate) : Prop where
  acceptable : ∀ r ∈ rates, r.Acceptable
  distinct : (rates.map (·.scheme)).Nodup
  sum_lt : (rates.map (·.employeeRate.toRat)).sum < 1

/-- What passes the check is what is a table. The check sums up rounded
rates, but below one nothing is rounded. -/
theorem checkAll_eq_ok {rates : List ContributionRate} :
    checkAll rates = .ok () ↔ Table rates := by
  have hsum (hrates : ∀ r ∈ rates, r.Acceptable) :
      (∃ all, Decimal.sum (rates.map (·.employeeRate)) = .ok all
        ∧ all.toRat < 1) ↔ (rates.map (·.employeeRate.toRat)).sum < 1 := by
    rw [sum_lt_one_iff, total, List.map_map]
    · rfl
    · intro b hb
      obtain ⟨r, hr, rfl⟩ := List.mem_map.1 hb
      exact (hrates r hr).2.employee_nonneg
  rw [checkAll, check_bind_eq_ok, checkEach_eq_ok, bind_eq_ok,
    fresh_iff_nodup]
  simp only [liftM_fault_eq_ok, ite_error_eq_ok, le_iff_toRat, toRat_one,
    not_le, and_true]
  constructor
  · rintro ⟨⟨hrates, hdistinct⟩, hlt⟩
    exact ⟨hrates, hdistinct, (hsum hrates).1 hlt⟩
  · intro h
    exact ⟨⟨h.acceptable, h.distinct⟩, (hsum h.acceptable).2 h.sum_lt⟩

theorem Table.proper {rates : List ContributionRate} (h : Table rates) :
    ∀ r ∈ rates, r.Proper :=
  fun r hr => (h.acceptable r hr).2

-- ================================================================ shares

variable {r : ContributionRate}

/-- The part of a gross value under the ceiling. -/
def capped (r : ContributionRate) (gross : ℚ) : ℚ :=
  match r.ceiling with
  | some c => min gross c.toRat
  | none => gross

/-- The employee's share of a gross value, before it is rounded to the
ledger. -/
def employeeDue (r : ContributionRate) (gross : ℚ) : ℚ :=
  nearest (r.capped gross * r.employeeRate.toRat)

/-- The rate of one side. -/
def rate (r : ContributionRate) : Side → Decimal
  | .employee => r.employeeRate
  | .employer => r.employerRate

/-- The share of one side in a gross value. -/
def due (r : ContributionRate) (side : Side) (gross : ℚ) : ℚ :=
  nearest (r.capped gross * (r.rate side).toRat)

theorem Proper.rate_nonneg (hr : r.Proper) (side : Side) :
    0 ≤ (r.rate side).toRat := by
  cases side with
  | employee => exact hr.employee_nonneg
  | employer => exact hr.employer_nonneg

theorem toRat_base (r : ContributionRate) (gross : Decimal) :
    (r.base gross).toRat = r.capped gross.toRat := by
  unfold base capped
  cases r.ceiling with
  | none => rfl
  | some c => exact toRat_min gross c

theorem capped_nonneg (hr : r.Proper) {gross : ℚ} (h : 0 ≤ gross) :
    0 ≤ r.capped gross := by
  unfold capped
  split
  · rename_i c hc
    exact le_min h (hr.ceiling_pos c hc).le
  · exact h

theorem capped_mono (r : ContributionRate) : Monotone r.capped := by
  intro g g' h
  unfold capped
  split
  · exact min_le_min_right _ h
  · exact h

theorem due_nonneg (hr : r.Proper) (side : Side) {gross : ℚ}
    (h : 0 ≤ gross) : 0 ≤ r.due side gross :=
  nearest_nonneg (mul_nonneg (capped_nonneg hr h) (hr.rate_nonneg side))

/-- A higher gross never owes less. -/
theorem due_mono (hr : r.Proper) (side : Side) :
    Monotone (r.due side) := by
  intro g g' h
  exact nearest_mono
    (mul_le_mul_of_nonneg_right (r.capped_mono h) (hr.rate_nonneg side))

theorem employeeDue_nonneg (hr : r.Proper) {gross : ℚ} (h : 0 ≤ gross) :
    0 ≤ r.employeeDue gross :=
  due_nonneg hr .employee h

theorem employeeDue_mono (hr : r.Proper) : Monotone r.employeeDue :=
  due_mono hr .employee

-- ========================================================== exact shares

/-- A scheme whose ceiling has at most four places and whose employee
rate has at most six. -/
structure Measured (r : ContributionRate) : Prop where
  rate : Whole 6 r.employeeRate.toRat
  ceiling : ∀ c, r.ceiling = some c → Whole 4 c.toRat

variable {g f : ℚ}

theorem Measured.capped (hm : r.Measured) (hg : Whole 4 g) :
    Whole 4 (r.capped g) := by
  unfold ContributionRate.capped
  split
  · rename_i c hc
    exact hg.min (hm.ceiling c hc)
  · exact hg

theorem capped_le (r : ContributionRate) (g : ℚ) : r.capped g ≤ g := by
  unfold capped
  split
  · exact min_le_left _ _
  · exact le_rfl

/-- Under a ceiling no more is gained than without one. -/
theorem capped_sub_le (r : ContributionRate) (h : f ≤ g) :
    r.capped g - r.capped f ≤ g - f := by
  unfold capped
  split
  · rename_i c _
    rcases le_total f c.toRat with hc | hc
    · rw [min_eq_left hc]
      linarith [min_le_left g c.toRat]
    · rw [min_eq_right hc]
      linarith [min_le_right g c.toRat]
  · exact le_rfl

/-- Where the places suffice, a share is the product. -/
theorem employeeDue_exact (hr : r.Proper) (hm : r.Measured)
    (hg : Whole 4 g) (hnonneg : 0 ≤ g) (hle : g ≤ 10 ^ 18) :
    r.employeeDue g = r.capped g * r.employeeRate.toRat := by
  have hcapped := hm.capped hg
  have hbase := capped_nonneg hr hnonneg
  have hshare := mul_le_of_le_one_right hbase hr.employee_le_one
  have hcap := r.capped_le g
  have hwhole : Whole 10 (r.capped g * r.employeeRate.toRat) :=
    hcapped.mul hm.rate
  refine hwhole.nearest_eq (by decide) ?_
  rw [abs_of_nonneg (mul_nonneg hbase hr.employee_nonneg)]
  linarith

/-- A share grows by no more than its rate of what the gross grows
by. -/
theorem employeeDue_sub_le (hr : r.Proper) (hm : r.Measured)
    (hf : Whole 4 f) (hg : Whole 4 g) (hnonneg : 0 ≤ f) (hfg : f ≤ g)
    (hle : g ≤ 10 ^ 18) :
    r.employeeDue g - r.employeeDue f
      ≤ (g - f) * r.employeeRate.toRat := by
  rw [employeeDue_exact hr hm hg (hnonneg.trans hfg) hle,
    employeeDue_exact hr hm hf hnonneg (hfg.trans hle), ← sub_mul]
  exact mul_le_mul_of_nonneg_right (r.capped_sub_le hfg) hr.employee_nonneg

/-- A share that is rounded up takes no more than its rate of the gross
and of a million: a rate that is not zero is no less than one in a
million, and a rate of zero takes nothing. -/
theorem ceil_employeeDue_le (hr : r.Proper) (hm : r.Measured)
    (hg : Whole 4 g) (hnonneg : 0 ≤ g) (hle : g ≤ 10 ^ 18) :
    (⌈r.employeeDue g⌉ : ℚ) ≤ (g + 10 ^ 6) * r.employeeRate.toRat := by
  have hexact := employeeDue_exact hr hm hg hnonneg hle
  obtain ⟨k, hk⟩ := hm.rate
  rcases hr.employee_nonneg.eq_or_lt with hzero | hpos
  · rw [hexact, ← hzero, mul_zero, mul_zero, Int.ceil_zero, Int.cast_zero]
  · have hk' : (0 : ℚ) < k := by
      rw [← hk]
      positivity
    have hone : (1 : ℚ) ≤ k := by
      exact_mod_cast Int.cast_pos.1 hk'
    have hshare : r.employeeDue g ≤ g * r.employeeRate.toRat := by
      rw [hexact]
      exact mul_le_mul_of_nonneg_right (r.capped_le g) hpos.le
    have hceil := Int.ceil_lt_add_one (r.employeeDue g)
    rw [add_mul]
    linarith

/-- A share that is rounded up takes its rate of the gross and one and a
half units at most, however many places there are. -/
theorem ceil_employeeDue_le_add (hr : r.Proper) (hnonneg : 0 ≤ g)
    (hle : g ≤ 10 ^ 28) :
    (⌈r.employeeDue g⌉ : ℚ) ≤ g * r.employeeRate.toRat + 3 / 2 := by
  have hbase := capped_nonneg hr hnonneg
  have hcap := r.capped_le g
  have hshare := mul_le_of_le_one_right hbase hr.employee_le_one
  have hnear := nearest_le_add_half
    (mul_nonneg hbase hr.employee_nonneg) (by linarith)
  have hceil := Int.ceil_lt_add_one (r.employeeDue g)
  calc (⌈r.employeeDue g⌉ : ℚ)
      ≤ r.employeeDue g + 1 := hceil.le
    _ ≤ r.capped g * r.employeeRate.toRat + 3 / 2 := by
        unfold employeeDue
        linarith
    _ ≤ g * r.employeeRate.toRat + 3 / 2 := by
        have := mul_le_mul_of_nonneg_right hcap hr.employee_nonneg
        linarith

/-- What a line holds. -/
theorem line_eq_ok {gross : Decimal} {l : ContributionLine}
    (h : r.line gross = .ok l) : l.scheme = r.scheme
      ∧ (r.base gross).mul r.employeeRate = .ok l.employeeAmount
      ∧ (r.base gross).mul r.employerRate = .ok l.employerAmount := by
  obtain ⟨employee, hemployee, h⟩ := bind_eq_ok.1 h
  obtain ⟨employer, hemployer, h⟩ := bind_eq_ok.1 h
  cases h
  exact ⟨rfl, hemployee, hemployer⟩

theorem toRat_amount {gross : Decimal} {l : ContributionLine}
    (h : r.line gross = .ok l) (side : Side) :
    (l.amount side).toRat = r.due side gross.toRat := by
  obtain ⟨-, hemployee, hemployer⟩ := line_eq_ok h
  unfold due
  rw [← toRat_base]
  cases side with
  | employee => exact toRat_mul hemployee
  | employer => exact toRat_mul hemployer

theorem exists_line (hr : r.Proper) {gross : Decimal}
    (h : 0 ≤ gross.toRat) : ∃ l, r.line gross = .ok l := by
  have hbase : 0 ≤ (r.base gross).toRat := by
    rw [toRat_base]
    exact capped_nonneg hr h
  obtain ⟨employee, hemployee⟩ :=
    exists_share hbase hr.employee_nonneg hr.employee_le_one
  obtain ⟨employer, hemployer⟩ :=
    exists_share hbase hr.employer_nonneg hr.employer_le_one
  simp only [line, hemployee, hemployer, ok_bind]
  exact ⟨_, rfl⟩

end ContributionRate

namespace Contributions

variable {rates : List ContributionRate} {gross : Decimal}
  {c : Contributions}

theorem compute_eq_ok : compute gross rates = .ok c ↔ 0 ≤ gross.toRat
    ∧ List.Forall₂ (fun r l => r.line gross = .ok l) rates c.lines := by
  unfold compute
  split
  · rename_i h
    rw [lt_iff_toRat, toRat_zero] at h
    constructor
    · intro hc
      cases hc
    · exact fun hc => absurd hc.1 (not_le.2 h)
  · rename_i h
    rw [lt_iff_toRat, toRat_zero, not_lt] at h
    rw [bind_eq_ok]
    constructor
    · rintro ⟨lines, hlines, hc⟩
      cases hc
      simp only [mapM_eq_ok, liftM_fault_eq_ok] at hlines
      exact ⟨h, hlines⟩
    · rintro ⟨-, hlines⟩
      refine ⟨c.lines, ?_, rfl⟩
      simp only [mapM_eq_ok, liftM_fault_eq_ok]
      exact hlines

/-- A gross that is not negative has contributions. -/
theorem exists_compute (hrates : ∀ r ∈ rates, r.Proper)
    (h : 0 ≤ gross.toRat) : ∃ c, compute gross rates = .ok c := by
  have hlines : ∃ lines, List.Forall₂
      (fun (r : ContributionRate) l => r.line gross = .ok l) rates lines := by
    induction rates with
    | nil => exact ⟨[], .nil⟩
    | cons r rest ih =>
        obtain ⟨l, hl⟩ :=
          ContributionRate.exists_line (hrates r List.mem_cons_self) h
        obtain ⟨lines, hlines⟩ :=
          ih fun r' hr' => hrates r' (List.mem_cons_of_mem r hr')
        exact ⟨l :: lines, .cons hl hlines⟩
  obtain ⟨lines, hlines⟩ := hlines
  exact ⟨⟨lines⟩, compute_eq_ok.2 ⟨h, hlines⟩⟩

/-- What is made of the shares of one side is made of what is due. -/
theorem map_amount {β : Type} (side : Side) (f : ℚ → β)
    (h : compute gross rates = .ok c) :
    c.lines.map (fun l => f (l.amount side).toRat)
      = rates.map (fun r => f (r.due side gross.toRat)) := by
  obtain ⟨-, hlines⟩ := compute_eq_ok.1 h
  clear h
  generalize c.lines = lines at hlines ⊢
  induction hlines with
  | nil => rfl
  | cons hline _ ih =>
      rw [List.map_cons, List.map_cons, ih,
        ContributionRate.toRat_amount hline]

theorem map_employee {β : Type} (f : ℚ → β)
    (h : compute gross rates = .ok c) :
    c.lines.map (fun l => f l.employeeAmount.toRat)
      = rates.map (fun r => f (r.employeeDue gross.toRat)) :=
  map_amount .employee f h

/-- What is true of all that is due is true of every share. -/
theorem forall_amount (side : Side) {P : ℚ → Prop}
    (hP : ∀ r ∈ rates, P (r.due side gross.toRat))
    (h : compute gross rates = .ok c) :
    ∀ l ∈ c.lines, P (l.amount side).toRat := by
  intro l hl
  have hmem : (l.amount side).toRat
      ∈ rates.map fun r => r.due side gross.toRat := by
    rw [← map_amount side (fun v => v) h]
    exact List.mem_map_of_mem hl
  obtain ⟨r, hr, heq⟩ := List.mem_map.1 hmem
  exact heq ▸ hP r hr

/-- No share of an employee is negative. -/
theorem employee_nonneg (hrates : ∀ r ∈ rates, r.Proper)
    (h : compute gross rates = .ok c) :
    ∀ l ∈ c.lines, 0 ≤ l.employeeAmount.toRat :=
  forall_amount .employee (P := (0 ≤ ·)) (fun r hr =>
    ContributionRate.due_nonneg (hrates r hr) .employee
      (compute_eq_ok.1 h).1) h

theorem map_scheme (h : compute gross rates = .ok c) :
    c.lines.map (·.scheme) = rates.map (·.scheme) := by
  obtain ⟨-, hlines⟩ := compute_eq_ok.1 h
  clear h
  generalize c.lines = lines at hlines ⊢
  induction hlines with
  | nil => rfl
  | cons hline _ ih =>
      obtain ⟨hscheme, -⟩ := ContributionRate.line_eq_ok hline
      rw [List.map_cons, List.map_cons, ih, hscheme]

theorem scheme_rounded (c : Contributions) (rounding : Rounding) :
    (c.rounded rounding).lines.map (·.scheme) = c.lines.map (·.scheme) := by
  unfold rounded
  rw [List.map_map]
  rfl

-- ============================================================ by scheme

/-- One amount of every line under the name of its scheme. -/
def byScheme (c : Contributions) (f : ContributionLine → Decimal) :
    Named Decimal :=
  .ofList (c.lines.map fun l => (l.scheme, f l))

variable {f : ContributionLine → Decimal}

theorem map_fst_byScheme (c : Contributions) :
    (c.lines.map fun l => (l.scheme, f l)).map (·.1)
      = c.lines.map (·.scheme) := by
  rw [List.map_map]
  rfl

theorem get?_byScheme (h : (c.lines.map (·.scheme)).Nodup)
    {l : ContributionLine} (hl : l ∈ c.lines) :
    (c.byScheme f).get? l.scheme = some (f l) := by
  rw [← map_fst_byScheme (f := f)] at h
  exact (Named.get?_ofList h).2 (List.mem_map.2 ⟨l, hl, rfl⟩)

theorem mem_names_byScheme (h : (c.lines.map (·.scheme)).Nodup)
    {name : String} : name ∈ (c.byScheme f).names
      ↔ name ∈ c.lines.map (·.scheme) := by
  rw [← map_fst_byScheme (f := f)] at h ⊢
  exact ((Named.entries_ofList_perm h).map (·.1)).mem_iff

/-- A total over the schemes is a total over the lines. -/
theorem total_byScheme (h : (c.lines.map (·.scheme)).Nodup) :
    total (c.byScheme f).values = total (c.lines.map f) := by
  rw [← map_fst_byScheme (f := f)] at h
  rw [byScheme, total_perm (Named.values_ofList_perm h), List.map_map]
  rfl

/-- Every scheme has its line. -/
theorem exists_mem_line (h : compute gross rates = .ok c)
    {r : ContributionRate} (hr : r ∈ rates) :
    ∃ l ∈ c.lines, r.line gross = .ok l := by
  obtain ⟨-, hlines⟩ := compute_eq_ok.1 h
  clear h
  generalize c.lines = lines at hlines ⊢
  induction hlines with
  | nil => cases hr
  | @cons r' l rates lines hline _ ih =>
      rcases List.mem_cons.1 hr with rfl | hr
      · exact ⟨l, List.mem_cons_self, hline⟩
      · obtain ⟨l', hl', hline'⟩ := ih hr
        exact ⟨l', List.mem_cons_of_mem l hl', hline'⟩

/-- Rounded shares can be paid out of a ledger. -/
theorem payable_rounded {rounding : Rounding}
    (hplaces : rounding.places ≤ 4) (hrates : ∀ r ∈ rates, r.Proper)
    (h : compute gross rates = .ok c) :
    Payable ((c.rounded rounding).lines.map (·.employeeAmount)) := by
  unfold rounded
  rw [List.map_map]
  exact payable_map fun l hl =>
    rounding.held_round hplaces (employee_nonneg hrates h l hl)

-- =============================================================== totals

/-- The total of the employee's shares, each rounded. -/
theorem total_employee_rounded (rounding : Rounding)
    (h : compute gross rates = .ok c) :
    total ((c.rounded rounding).lines.map (·.employeeAmount))
      = (rates.map fun r =>
        rounding.value (r.employeeDue gross.toRat)).sum := by
  rw [← map_employee rounding.value h]
  unfold total rounded
  simp only [List.map_map, Function.comp_def, Rounding.toRat_round]

theorem total_employee_floor (h : compute gross rates = .ok c) :
    total (c.lines.map (·.employeeAmount.floor))
      = (rates.map fun r => (⌊r.employeeDue gross.toRat⌋ : ℚ)).sum := by
  rw [← map_employee (fun v => (⌊v⌋ : ℚ)) h]
  unfold total
  simp only [List.map_map, Function.comp_def, toRat_floor]

theorem total_employee_ceil (h : compute gross rates = .ok c) :
    total (c.lines.map (·.employeeAmount.ceil))
      = (rates.map fun r => (⌈r.employeeDue gross.toRat⌉ : ℚ)).sum := by
  rw [← map_employee (fun v => (⌈v⌉ : ℚ)) h]
  unfold total
  simp only [List.map_map, Function.comp_def, toRat_ceil]

/-- All shares rounded up take all rates of the gross and one and a half
units for each scheme at most. -/
theorem total_employee_ceil_le (hrates : ∀ r ∈ rates, r.Proper)
    (hle : gross.toRat ≤ 10 ^ 28) (h : compute gross rates = .ok c) :
    total (c.lines.map (·.employeeAmount.ceil))
      ≤ gross.toRat * (rates.map (·.employeeRate.toRat)).sum
        + rates.length * (3 / 2) := by
  rw [total_employee_ceil h, ← List.sum_map_mul_left]
  exact sum_map_le_add fun r hr =>
    ContributionRate.ceil_employeeDue_le_add (hrates r hr)
      (compute_eq_ok.1 h).1 hle

end Contributions

end Payroll
