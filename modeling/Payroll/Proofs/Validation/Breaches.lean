/-
Validation says what is wrong and nothing else. `Request.rules` lists
what a request has to keep, each rule with the error that reports it and
with a condition that stands by itself: no rule is excused because
another one is broken. The errors of a report are the broken rules, in
that order (`errors_eq_breaches`).

The checks do hang on each other in how they are written: the second of
two looks only where the first found nothing, a category is passed over
once it was faulted, and one loop remembers for later whether there was
any overtime. None of that shows. Where a check is skipped after another,
the two conditions exclude each other, and two faults of one name are
both reported.

Only the bounds are different. They are asked where no rule is broken,
and then they add one error at most (`Late`).
-/
import Payroll.Proofs.Validation.Passing
import Payroll.Rules.Senegal

namespace Payroll

open Decimal

variable {r : Request} {s : Snapshot} {asOf : Date}

-- ============================================================== the rules

/-- A rule for requests: the code and the field of the error that
reports a breach, and whether the rule is broken. -/
structure Rule where
  code : String
  field : String
  broken : Bool

/-- The errors of the broken rules. -/
def breaches (rules : List Rule) : List (String × String) :=
  (rules.filter (·.broken)).map fun u => (u.code, u.field)

namespace Rule

def employee (r : Request) : List Rule :=
  [⟨"EMPLOYEE_ID_MISSING", "employee_id",
    r.employeeId.toList.all Text.isBlank⟩]

def salary (r : Request) (s : Snapshot) : List Rule :=
  [⟨"BASE_SALARY_NOT_POSITIVE", "base_salary", r.baseSalary.toRat ≤ 0⟩,
   ⟨"BASE_SALARY_BELOW_MINIMUM", "base_salary",
    0 < r.baseSalary.toRat ∧ r.baseSalary.toRat < s.minimumWage.toRat⟩]

def regularHours (r : Request) : List Rule :=
  [⟨"NEGATIVE_HOURS", "regular_hours", r.regularHours.toRat < 0⟩,
   ⟨"HOURS_EXCEED_PERIOD", "regular_hours",
    24 * r.period.days < r.regularHours.toRat⟩]

/-- Overtime hours of one category. -/
def category (s : Snapshot) (e : Category × Decimal) : List Rule :=
  [⟨"NEGATIVE_HOURS", s!"hours_by_category.{e.1.name}", e.2.toRat < 0⟩,
   ⟨"OVERTIME_CATEGORY_NOT_CONFIGURED", s!"hours_by_category.{e.1.name}",
    0 < e.2.toRat ∧ ∀ rule ∈ s.overtime, rule.category ≠ e.1⟩]

def overtime (r : Request) : List Rule :=
  [⟨"OVERTIME_WITHOUT_REGULAR_HOURS", "hours_by_category",
    (∃ e ∈ r.overtimeHours.entries, 0 < e.2.toRat)
      ∧ r.regularHours.toRat ≤ 0⟩]

/-- One named amount of a group. -/
def amount (group : AmountGroup) (e : String × Decimal) : List Rule :=
  [⟨"BLANK_NAME", group.name, e.1.toList.all Text.isBlank⟩,
   ⟨"NEGATIVE_AMOUNT", s!"{group.name}.{e.1}", e.2.toRat < 0⟩]

/-- The deductions asked for against salary and allowances. -/
def deductions (fixedPay explicit : Decimal) : List Rule :=
  [⟨"DEDUCTIONS_EXCEED_GROSS", "deductions",
    fixedPay.toRat < explicit.toRat⟩]

def period (r : Request) (asOf : Date) : List Rule :=
  [⟨"PERIOD_IN_FUTURE", "period", asOf.year < r.period.year
    ∨ asOf.year = r.period.year ∧ asOf.month < r.period.month⟩]

def delay (r : Request) : List Rule :=
  [⟨"DELAY_EXCEEDS_DAY", "attendance.delay_minutes",
    1440 < r.attendance.delayMinutes.toNat⟩]

def absence (r : Request) : List Rule :=
  [⟨"NEGATIVE_ABSENCE", "attendance.absence_days",
    r.attendance.absenceDays.toRat < 0⟩,
   ⟨"ABSENCE_EXCEEDS_PERIOD", "attendance.absence_days",
    r.period.days < r.attendance.absenceDays.toRat⟩]

end Rule

/-- The rules for a request, in reporting order. Salary and allowances
come to `fixedPay`, the deductions asked for to `explicit`. -/
def Request.rules (r : Request) (s : Snapshot) (asOf : Date)
    (fixedPay explicit : Decimal) : List Rule :=
  Rule.employee r ++ Rule.salary r s ++ Rule.regularHours r
    ++ (r.overtimeHours.entries.flatMap (Rule.category s)
      ++ Rule.overtime r)
    ++ (r.allowances.entries.flatMap (Rule.amount .allowances)
      ++ r.deductions.entries.flatMap (Rule.amount .deductions))
    ++ Rule.deductions fixedPay explicit ++ Rule.period r asOf
    ++ Rule.delay r ++ Rule.absence r

-- ================================================================= errors

/-- The errors of what was found. -/
def errorKeys (found : List Finding) : List (String × String) :=
  (found.filter (·.blocks)).map fun f => (f.code, f.field)

theorem breaches_append (us vs : List Rule) :
    breaches (us ++ vs) = breaches us ++ breaches vs := by
  unfold breaches
  rw [List.filter_append, List.map_append]

theorem errorKeys_append (found more : List Finding) :
    errorKeys (found ++ more) = errorKeys found ++ errorKeys more := by
  unfold errorKeys
  rw [List.filter_append, List.map_append]

/-- Checks that go through a list report what each entry breaks. -/
theorem errorKeys_flatMap {α : Type} {l : List α}
    {check : α → List Finding} {rules : α → List Rule}
    (h : ∀ a, errorKeys (check a) = breaches (rules a)) :
    errorKeys (l.flatMap check) = breaches (l.flatMap rules) := by
  induction l with
  | nil => rfl
  | cons a l ih =>
      rw [List.flatMap_cons, List.flatMap_cons, errorKeys_append,
        breaches_append, h, ih]

theorem errorKeys_eq_nil_iff {found : List Finding} :
    errorKeys found = [] ↔ Harmless found := by
  rw [errorKeys, List.map_eq_nil_iff, List.filter_eq_nil_iff]
  simp only [Harmless, Bool.not_eq_true]

section

variable {p q : Prop} [Decidable p] [Decidable q] {us : List Rule}

theorem breaches_of_kept {code field : String} (h : ¬q) :
    breaches (⟨code, field, q⟩ :: us) = breaches us := by
  rw [breaches, List.filter_cons_of_neg (by simpa using h)]
  rfl

theorem breaches_of_broken {code field : String} (h : q) :
    breaches (⟨code, field, q⟩ :: us) = (code, field) :: breaches us := by
  rw [breaches, List.filter_cons_of_pos (by simpa using h)]
  rfl

/-- A check that reports one rule, and looks at others where that one is
kept. It misses nothing if the others are kept wherever it is broken. -/
theorem errorKeys_ite {f : Finding} {rest : List Finding}
    (hf : f.blocks = true) (hbroken : p ↔ q)
    (hskipped : p → breaches us = [])
    (hrest : ¬p → errorKeys rest = breaches us) :
    errorKeys (if p then [f] else rest)
      = breaches (⟨f.code, f.field, q⟩ :: us) := by
  by_cases h : p
  · rw [if_pos h, breaches_of_broken (hbroken.1 h), hskipped h, errorKeys,
      List.filter_cons_of_pos hf]
    rfl
  · rw [if_neg h, hrest h, breaches_of_kept (fun hq => h (hbroken.2 hq))]

/-- A check that reports one rule. -/
theorem errorKeys_one {f : Finding} (hf : f.blocks = true)
    (hbroken : p ↔ q) : errorKeys (if p then [f] else [])
      = breaches [⟨f.code, f.field, q⟩] :=
  errorKeys_ite hf hbroken (fun _ => rfl) (fun _ => rfl)

end

-- ============================================================= the checks

namespace Validation

theorem nonpos_iff {a : Decimal} : a ≤ .zero ↔ a.toRat ≤ 0 := by
  rw [le_iff_toRat, toRat_zero]

theorem neg_iff {a : Decimal} : a < .zero ↔ a.toRat < 0 := by
  rw [lt_iff_toRat, toRat_zero]

theorem pos_iff {a : Decimal} : .zero < a ↔ 0 < a.toRat := by
  rw [lt_iff_toRat, toRat_zero]

theorem errorKeys_blank {f : Finding} (hf : f.blocks = true)
    (text : String) : errorKeys (if Text.isBlankText text then [f] else [])
      = breaches [⟨f.code, f.field, text.toList.all Text.isBlank⟩] := by
  have h := errorKeys_one hf (Iff.refl (Text.isBlankText text = true))
  rwa [Bool.decide_eq_true] at h

theorem errorKeys_checkEmployeeId :
    errorKeys (checkEmployeeId r) = breaches (Rule.employee r) :=
  errorKeys_blank rfl r.employeeId

theorem errorKeys_checkSalary :
    errorKeys (checkSalary r s) = breaches (Rule.salary r s) := by
  refine errorKeys_ite rfl nonpos_iff (fun hle => ?_) (fun hpos => ?_)
  · rw [nonpos_iff] at hle
    exact breaches_of_kept fun h => absurd h.1 (not_lt.2 hle)
  · rw [nonpos_iff, not_le] at hpos
    exact errorKeys_one rfl
      (lt_iff_toRat.trans (and_iff_right hpos).symm)

theorem errorKeys_checkRegularHours :
    errorKeys (checkRegularHours r) = breaches (Rule.regularHours r) := by
  have hlong : r.period.hourCount < r.regularHours
      ↔ 24 * (r.period.days : ℚ) < r.regularHours.toRat := by
    rw [lt_iff_toRat, Period.hourCount, toRat_ofNat, Nat.cast_mul]
    rfl
  refine errorKeys_ite rfl neg_iff (fun hneg => ?_)
    (fun _ => errorKeys_one rfl hlong)
  rw [neg_iff] at hneg
  refine breaches_of_kept fun h => absurd (hneg.trans_le ?_) h.asymm
  positivity

theorem overtimeRule?_eq_none {c : Category} : s.overtimeRule? c = none
    ↔ ∀ rule ∈ s.overtime, rule.category ≠ c := by
  rw [Snapshot.overtimeRule?, OvertimeRule.find?, List.find?_eq_none]
  simp only [beq_iff_eq, ne_eq]

/-- Hours that are neither negative nor none are positive. -/
theorem errorKeys_checkCategory (e : Category × Decimal) :
    errorKeys (checkCategory s e) = breaches (Rule.category s e) := by
  refine errorKeys_ite rfl neg_iff (fun hneg => ?_) (fun hnonneg => ?_)
  · rw [neg_iff] at hneg
    exact breaches_of_kept fun h => absurd h.1 hneg.asymm
  · rw [neg_iff, not_lt] at hnonneg
    split
    · rename_i hzero
      rw [equiv_iff_toRat, toRat_zero] at hzero
      rw [breaches_of_kept]
      · rfl
      · exact fun h => h.1.ne hzero.symm
    · rename_i hzero
      rw [equiv_iff_toRat, toRat_zero] at hzero
      have hpos : 0 < e.2.toRat := hnonneg.lt_of_ne (Ne.symm hzero)
      cases hrule : s.overtimeRule? e.1 with
      | none =>
          rw [breaches_of_broken ⟨hpos, overtimeRule?_eq_none.1 hrule⟩]
          rfl
      | some rule =>
          rw [breaches_of_kept]
          · exact errorKeys_eq_nil_iff.2 (harmless_aboveCap rule e)
          · intro h
            rw [overtimeRule?_eq_none.2 h.2] at hrule
            cases hrule

theorem hasOvertime_iff : hasOvertime r = true
    ↔ ∃ e ∈ r.overtimeHours.entries, 0 < e.2.toRat := by
  simp only [hasOvertime, List.any_eq_true, decide_eq_true_eq, pos_iff]

theorem errorKeys_checkOvertime : errorKeys (checkOvertime r s)
    = breaches (r.overtimeHours.entries.flatMap (Rule.category s)
      ++ Rule.overtime r) := by
  have hidle : errorKeys (if hasOvertime r ∧ r.regularHours ≤ .zero then
      [.overtimeWithoutRegularHours] else []) = breaches (Rule.overtime r) :=
    errorKeys_one rfl (and_congr hasOvertime_iff nonpos_iff)
  rw [checkOvertime, errorKeys_append, breaches_append, hidle,
    errorKeys_flatMap errorKeys_checkCategory]

/-- A blank name does not hide a negative amount. -/
theorem errorKeys_checkAmount (group : AmountGroup)
    (e : String × Decimal) :
    errorKeys (checkAmount group e) = breaches (Rule.amount group e) := by
  have hblank : errorKeys (if Text.isBlankText e.1 then
      [.blankName group] else [])
        = breaches [⟨"BLANK_NAME", group.name,
          e.1.toList.all Text.isBlank⟩] :=
    errorKeys_blank rfl e.1
  have hnegative : errorKeys (if e.2 < .zero then
      [.negativeAmount group e.1 e.2] else [])
        = breaches [⟨"NEGATIVE_AMOUNT",
          (Finding.negativeAmount group e.1 e.2).field, e.2.toRat < 0⟩] :=
    errorKeys_one rfl neg_iff
  rw [checkAmount, errorKeys_append, hblank, hnegative,
    ← breaches_append]
  rfl

theorem errorKeys_checkAmounts : errorKeys (checkAmounts r)
    = breaches (r.allowances.entries.flatMap (Rule.amount .allowances)
      ++ r.deductions.entries.flatMap (Rule.amount .deductions)) := by
  rw [checkAmounts, errorKeys_append, breaches_append,
    errorKeys_flatMap (errorKeys_checkAmount .allowances),
    errorKeys_flatMap (errorKeys_checkAmount .deductions)]

theorem errorKeys_checkPeriod :
    errorKeys (checkPeriod r asOf) = breaches (Rule.period r asOf) :=
  errorKeys_one rfl Iff.rfl

theorem errorKeys_checkDelay :
    errorKeys (checkDelay r) = breaches (Rule.delay r) := by
  refine errorKeys_ite rfl UInt32.lt_iff_toNat_lt (fun _ => rfl)
    (fun _ => errorKeys_eq_nil_iff.2 ?_)
  split
  · exact harmless_singleton rfl
  · exact harmless_nil

theorem errorKeys_checkAbsence :
    errorKeys (checkAbsence r) = breaches (Rule.absence r) := by
  have hlong : r.period.dayCount < r.attendance.absenceDays
      ↔ (r.period.days : ℚ) < r.attendance.absenceDays.toRat := by
    rw [lt_iff_toRat, Period.dayCount, toRat_ofNat]
  refine errorKeys_ite rfl neg_iff (fun hneg => ?_) (fun _ =>
    errorKeys_ite rfl hlong (fun _ => rfl)
      (fun _ => errorKeys_eq_nil_iff.2 ?_))
  · rw [neg_iff] at hneg
    refine breaches_of_kept fun h => absurd (hneg.trans_le ?_) h.asymm
    exact Nat.cast_nonneg _
  · split
    · exact harmless_singleton rfl
    · exact harmless_nil

/-- The checks find the broken rules, where the sums that they compare
exist. -/
theorem errorKeys_examine {found : List Finding}
    (h : examine r s asOf = .ok found) :
    ∃ allowances fixedPay explicit, r.totalAllowances = .ok allowances
      ∧ r.baseSalary.add allowances = .ok fixedPay
      ∧ r.totalDeductions = .ok explicit
      ∧ errorKeys found = breaches (r.rules s asOf fixedPay explicit) := by
  unfold examine checkDeductions at h
  obtain ⟨asked, hasked, h⟩ := bind_eq_ok.1 h
  obtain ⟨allowances, hallowances, hasked⟩ := bind_eq_ok.1 hasked
  obtain ⟨fixedPay, hfixedPay, hasked⟩ := bind_eq_ok.1 hasked
  obtain ⟨explicit, hexplicit, hasked⟩ := bind_eq_ok.1 hasked
  refine ⟨allowances, fixedPay, explicit, hallowances, hfixedPay, hexplicit,
    ?_⟩
  have hdeductions : errorKeys asked
      = breaches (Rule.deductions fixedPay explicit) := by
    cases hasked
    exact errorKeys_one rfl lt_iff_toRat
  cases h
  simp only [errorKeys_append, errorKeys_checkEmployeeId,
    errorKeys_checkSalary, errorKeys_checkRegularHours,
    errorKeys_checkOvertime, errorKeys_checkAmounts, hdeductions,
    errorKeys_checkPeriod, errorKeys_checkDelay, errorKeys_checkAbsence,
    ← breaches_append]
  rfl

end Validation

-- ============================================================== the report

/-- The codes and fields of the errors of a report. -/
def Report.keys (report : Report) : List (String × String) :=
  report.errors.map fun i => (i.code, i.field)

theorem Report.keys_ofFindings (found : List Finding) :
    (Report.ofFindings found).keys = errorKeys found := by
  rw [keys, errors_ofFindings, List.map_map]
  rfl

theorem Report.valid_iff_errors (found : List Finding) :
    (Report.ofFindings found).valid = true
      ↔ (Report.ofFindings found).errors = [] := by
  rw [valid_ofFindings, errors_ofFindings, List.map_eq_nil_iff,
    List.filter_eq_nil_iff, Bool.not_eq_true', List.any_eq_false]

/-- What the bounds add where no rule is broken. -/
inductive Late (r : Request) (s : Snapshot) : List (String × String) → Prop
  | unbounded (h : NetBounds.estimate r s = .ok none) : Late r s []
  | covered {b : NetBounds} (h : NetBounds.estimate r s = .ok (some b))
      (hcovered : Covered b) : Late r s []
  | deductions {b : NetBounds} (h : NetBounds.estimate r s = .ok (some b))
      (hlt : b.gross.toRat < b.deductions.toRat) :
      Late r s [("DEDUCTIONS_EXCEED_GROSS", "deductions")]
  | net {b : NetBounds} {taken : Decimal}
      (h : NetBounds.estimate r s = .ok (some b))
      (hle : b.deductions.toRat ≤ b.gross.toRat)
      (htaken : b.deductions.add b.withholdings = .ok taken)
      (hlt : b.gross.toRat < taken.toRat) :
      Late r s [("NET_SALARY_NEGATIVE", "deductions")]

theorem Late.length_le {keys : List (String × String)}
    (h : Late r s keys) : keys.length ≤ 1 := by
  cases h with
  | unbounded => exact Nat.zero_le 1
  | covered => exact Nat.zero_le 1
  | deductions => exact Nat.le_refl 1
  | net => exact Nat.le_refl 1

theorem late_of_checkBounds {b : NetBounds} {more : List Finding}
    (h : NetBounds.estimate r s = .ok (some b))
    (hmore : Validation.checkBounds b = .ok more) :
    Late r s (errorKeys more) := by
  unfold Validation.checkBounds at hmore
  split at hmore
  · rename_i hlt
    cases hmore
    exact .deductions h (lt_iff_toRat.1 hlt)
  · rename_i hle
    rw [lt_iff_toRat, not_lt] at hle
    obtain ⟨taken, htaken, hmore⟩ := bind_eq_ok.1 hmore
    by_cases hlt : b.gross < taken
    · rw [if_pos hlt] at hmore
      cases hmore
      exact .net h hle htaken (lt_iff_toRat.1 hlt)
    · rw [if_neg hlt] at hmore
      cases hmore
      rw [lt_iff_toRat, not_lt] at hlt
      exact .covered h ⟨hle, taken, htaken, hlt⟩

/-- The bounds are asked where the checks found no error. -/
theorem report_of_validate {report : Report}
    (h : validate r s asOf = .ok report) :
    (report.valid = true ↔ report.errors = [])
      ∧ ∃ found, Validation.examine r s asOf = .ok found
        ∧ (errorKeys found ≠ [] → report.keys = errorKeys found)
        ∧ (errorKeys found = [] → Late r s report.keys) := by
  cases reported_of_validate h with
  | forbidden hfound hblocks =>
      refine ⟨Report.valid_iff_errors _, _, hfound,
        fun _ => Report.keys_ofFindings _, fun hnone => ?_⟩
      obtain ⟨f, hf, hblocks⟩ := hblocks
      rw [errorKeys_eq_nil_iff.1 hnone f hf] at hblocks
      cases hblocks
  | unbounded hfound hfree hnone =>
      have hkeys := errorKeys_eq_nil_iff.2 hfree
      refine ⟨Report.valid_iff_errors _, _, hfound, absurd hkeys,
        fun _ => ?_⟩
      rw [Report.keys_ofFindings, hkeys]
      exact .unbounded hnone
  | bounded hfound hfree hb hmore =>
      have hkeys := errorKeys_eq_nil_iff.2 hfree
      refine ⟨Report.valid_iff_errors _, _, hfound, absurd hkeys,
        fun _ => ?_⟩
      rw [Report.keys_ofFindings, errorKeys_append, hkeys]
      exact late_of_checkBounds hb hmore

/-- A report is valid where it has no error. If a rule is broken, its
errors are the broken rules, in order; if none is, they are what the
bounds add. -/
theorem errors_eq_breaches {report : Report}
    (h : validate r s asOf = .ok report) :
    (report.valid = true ↔ report.errors = [])
    ∧ ∃ allowances fixedPay explicit, r.totalAllowances = .ok allowances
      ∧ r.baseSalary.add allowances = .ok fixedPay
      ∧ r.totalDeductions = .ok explicit
      ∧ (breaches (r.rules s asOf fixedPay explicit) ≠ [] →
        report.keys = breaches (r.rules s asOf fixedPay explicit))
      ∧ (breaches (r.rules s asOf fixedPay explicit) = [] →
        Late r s report.keys) := by
  obtain ⟨hvalid, found, hfound, hbroken, hkept⟩ := report_of_validate h
  obtain ⟨allowances, fixedPay, explicit, hallowances, hfixedPay, hexplicit,
    hkeys⟩ := Validation.errorKeys_examine hfound
  rw [hkeys] at hbroken hkept
  exact ⟨hvalid, allowances, fixedPay, explicit, hallowances, hfixedPay,
    hexplicit, hbroken, hkept⟩

/-- A request with something wrong in nearly every place. -/
def Senegal.muddled : Request :=
  { employeeId := " "
    period := .of 2030 1
    baseSalary := 1000
    regularHours := -1
    overtimeHours := { night := some 2, weekend := some (-3) }
    allowances := .ofList [("", -5), ("transport", 20000)]
    deductions := .ofList [("loan", 90000)]
    attendance := { delayMinutes := 5000, absenceDays := 32 } }

/-- All that is wrong with it. -/
def Senegal.muddledKeys : List (String × String) :=
  [("EMPLOYEE_ID_MISSING", "employee_id"),
   ("BASE_SALARY_BELOW_MINIMUM", "base_salary"),
   ("NEGATIVE_HOURS", "regular_hours"),
   ("NEGATIVE_HOURS", "hours_by_category.weekend"),
   ("OVERTIME_WITHOUT_REGULAR_HOURS", "hours_by_category"),
   ("BLANK_NAME", "allowances"),
   ("NEGATIVE_AMOUNT", "allowances."),
   ("DEDUCTIONS_EXCEED_GROSS", "deductions"),
   ("PERIOD_IN_FUTURE", "period"),
   ("DELAY_EXCEEDS_DAY", "attendance.delay_minutes"),
   ("ABSENCE_EXCEEDS_PERIOD", "attendance.absence_days")]

theorem errors_eq_breaches_muddled : ∃ report fixedPay explicit,
    validate Senegal.muddled Senegal.snapshot
      { year := 2024, month := 4, day := 1 } = .ok report
    ∧ report.valid = false ∧ report.keys = Senegal.muddledKeys
    ∧ report.keys = breaches (Senegal.muddled.rules Senegal.snapshot
      { year := 2024, month := 4, day := 1 } fixedPay explicit) := by
  have hreport : (validate Senegal.muddled Senegal.snapshot
      { year := 2024, month := 4, day := 1 }).toOption.any
        (fun report => decide (report.valid = false
          ∧ report.keys = Senegal.muddledKeys)) = true := by
    decide +kernel
  obtain ⟨report, hreport, hkeys⟩ := exists_ok_of_any hreport
  obtain ⟨hvalid, hkeys⟩ := of_decide_eq_true hkeys
  obtain ⟨-, allowances, fixedPay, explicit, -, -, -, hbroken, hkept⟩ :=
    errors_eq_breaches hreport
  refine ⟨report, fixedPay, explicit, hreport, hvalid, hkeys, hbroken ?_⟩
  -- the bounds would have added one error at most
  intro hnone
  have hlate := (hkept hnone).length_le
  rw [hkeys] at hlate
  exact absurd hlate (by decide)

end Payroll
