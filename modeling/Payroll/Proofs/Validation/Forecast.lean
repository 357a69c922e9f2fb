/-
What validation announces is what the payslip reports. Validation and
calculation classify overtime, delay and absence each in its own code:
one compares hours with the cap that it looks up, the other pays the
hours and notes the cut; one compares minutes with the longest moderate
delay, the other asks for the tier. `Foretells` names the pairs of an
issue and a warning about one thing, and the two reports are such pairs
from first to last.

The order needs no argument of its own. Both go through the categories
in reporting order and then to delay and absence, so the pairs are
found category by category (`foretells_line`) and put together as the
reports are. A minor delay is reported and never announced; it is the
only warning that has no counterpart.

A valid report is needed where a check finds something worse in place
of what it would have announced: a delay of more than a day, an absence
of more days than the period has.
-/
import Payroll.Proofs.Payslip.Stages
import Payroll.Proofs.Validation.Estimate

namespace Payroll

open Decimal Validation

variable {r : Request} {s : Snapshot} {rounding : Rounding} {asOf : Date}

/-- An issue of a report and the warning of the payslip that is about
the same thing. -/
inductive Foretells (r : Request) (s : Snapshot) : Issue → Warning → Prop
  | aboveCap {c : Category} {hours cap excess : Decimal}
      {rule : OvertimeRule} (worked : r.overtimeHours.get? c = some hours)
      (ruled : s.overtimeRule? c = some rule) (capped : rule.cap = some cap)
      (above : cap < hours) (cut : hours.sub cap = .ok excess) :
      Foretells r s (Finding.overtimeAboveCap c hours cap).issue
        (Overtime.clamped c cap excess)
  | severeDelay (late : r.attendance.delayTier = .severe) :
      Foretells r s
        (Finding.delayRequiresApproval r.attendance.delayMinutes).issue
        (Adjustment.severeDelay r.attendance.delayMinutes)
  | paidAbsence (paid : r.attendance.paidAbsence = true)
      (absent : Decimal.zero < r.attendance.absenceDays) :
      Foretells r s (Finding.paidAbsence r.attendance.absenceDays).issue
        (Adjustment.paidAbsenceRecorded r.attendance.absenceDays)

/-- The codes of such pairs. -/
theorem Foretells.codes {i : Issue} {w : Warning} (h : Foretells r s i w) :
    (i.code, w.code) ∈ [
      ("OVERTIME_ABOVE_CAP", "OVERTIME_HOURS_CLAMPED"),
      ("DELAY_REQUIRES_APPROVAL", "SEVERE_DELAY_REQUIRES_APPROVAL"),
      ("PAID_ABSENCE", "PAID_ABSENCE_RECORDED")] := by
  cases h with
  | aboveCap => exact List.mem_of_getElem? (i := 0) rfl
  | severeDelay => exact List.mem_of_getElem? (i := 1) rfl
  | paidAbsence => exact List.mem_of_getElem? (i := 2) rfl

theorem Foretells.code_ne {i : Issue} {w : Warning}
    (h : Foretells r s i w) : w.code ≠ "MINOR_DELAY" := by
  intro hminor
  have hcodes := h.codes
  rw [hminor] at hcodes
  simp at hcodes

/-- Only a severe delay is announced as one that needs approval. -/
theorem Foretells.severe {i : Issue} {w : Warning} (h : Foretells r s i w)
    (hcode : i.code = "DELAY_REQUIRES_APPROVAL") :
    r.attendance.delayTier = .severe := by
  cases h with
  | aboveCap => exact absurd hcode (by simp [Finding.issue, Finding.code])
  | severeDelay late => exact late
  | paidAbsence => exact absurd hcode (by simp [Finding.issue, Finding.code])

/-- Every announcement is of something. -/
theorem exists_foretold {issues : List Issue} {warnings : List Warning}
    (h : List.Forall₂ (Foretells r s) issues warnings) {i : Issue}
    (hi : i ∈ issues) : ∃ w ∈ warnings, Foretells r s i w := by
  induction h with
  | nil => cases hi
  | cons hpair _ ih =>
      rcases List.mem_cons.1 hi with rfl | hi
      · exact ⟨_, List.mem_cons_self, hpair⟩
      · obtain ⟨w, hw, hpair⟩ := ih hi
        exact ⟨w, List.mem_cons_of_mem _ hw, hpair⟩

/-- What was announced is not left out as a minor delay. -/
theorem filter_of_foretells {issues : List Issue} {warnings : List Warning}
    (h : List.Forall₂ (Foretells r s) issues warnings) :
    warnings.filter (·.code != "MINOR_DELAY") = warnings := by
  induction h with
  | nil => rfl
  | cons hpair _ ih =>
      rw [List.filter_cons_of_pos (by simpa using hpair.code_ne), ih]

-- ============================================================ announcements

/-- The issues that a report holds as warnings. -/
def announcements (found : List Finding) : List Issue :=
  (found.filter fun f => !f.blocks).map Finding.issue

@[simp] theorem announcements_append (found more : List Finding) :
    announcements (found ++ more)
      = announcements found ++ announcements more := by
  simp [announcements]

/-- A finding that forbids the calculation is not announced. -/
theorem announcements_ite {p : Prop} [Decidable p] {f : Finding}
    {rest : List Finding} (hf : f.blocks = true)
    (hrest : announcements rest = []) :
    announcements (if p then [f] else rest) = [] := by
  split
  · simp [announcements, hf]
  · exact hrest

theorem Report.warnings_ofFindings (found : List Finding) :
    (Report.ofFindings found).warnings = announcements found := by
  rw [Report.ofFindings_eq]
  rfl

theorem announcements_checkBounds {b : NetBounds} {more : List Finding}
    (h : checkBounds b = .ok more) : announcements more = [] := by
  unfold checkBounds at h
  split at h
  · cases h
    rfl
  · obtain ⟨total, -, h⟩ := bind_eq_ok.1 h
    cases h
    exact announcements_ite rfl rfl

/-- The warnings of a report are announced by the checks; the bounds add
none. -/
theorem warnings_of_validate {report : Report}
    (h : validate r s asOf = .ok report) :
    ∃ found, examine r s asOf = .ok found
      ∧ report.warnings = announcements found := by
  cases reported_of_validate h with
  | forbidden hfound => exact ⟨_, hfound, Report.warnings_ofFindings _⟩
  | unbounded hfound => exact ⟨_, hfound, Report.warnings_ofFindings _⟩
  | bounded hfound _ _ hmore =>
      refine ⟨_, hfound, ?_⟩
      rw [Report.warnings_ofFindings, announcements_append,
        announcements_checkBounds hmore, List.append_nil]

theorem announcements_flatMap {α : Type} {check : α → List Finding}
    {l : List α} (h : ∀ a ∈ l, announcements (check a) = []) :
    announcements (l.flatMap check) = [] := by
  induction l with
  | nil => rfl
  | cons a l ih =>
      rw [List.flatMap_cons, announcements_append,
        h a List.mem_cons_self,
        ih fun a' ha' => h a' (List.mem_cons_of_mem a ha')]
      rfl

theorem announcements_checkAmount (group : AmountGroup)
    (e : String × Decimal) :
    announcements (checkAmount group e) = [] := by
  rw [checkAmount, announcements_append, announcements_ite rfl rfl,
    announcements_ite rfl rfl]
  rfl

theorem announcements_checkDeductions {found : List Finding}
    (h : checkDeductions r = .ok found) : announcements found = [] := by
  obtain ⟨allowances, -, h⟩ := bind_eq_ok.1 h
  obtain ⟨gross, -, h⟩ := bind_eq_ok.1 h
  obtain ⟨deductions, -, h⟩ := bind_eq_ok.1 h
  cases h
  exact announcements_ite rfl rfl

/-- Three of the checks announce something; the others forbid what they
find. -/
theorem examine_eq_ok {found : List Finding}
    (h : examine r s asOf = .ok found) :
    ∃ rest, found = rest ++ checkDelay r ++ checkAbsence r
      ∧ announcements rest
        = announcements (r.overtimeHours.entries.flatMap
          (checkCategory s)) := by
  obtain ⟨deductions, hdeductions, h⟩ := bind_eq_ok.1 h
  cases h
  refine ⟨_, rfl, ?_⟩
  have hid : announcements (checkEmployeeId r) = [] :=
    announcements_ite rfl rfl
  have hsalary : announcements (checkSalary r s) = [] :=
    announcements_ite rfl (announcements_ite rfl rfl)
  have hhours : announcements (checkRegularHours r) = [] :=
    announcements_ite rfl (announcements_ite rfl rfl)
  have hidle : announcements (if hasOvertime r ∧ r.regularHours ≤ .zero then
      [.overtimeWithoutRegularHours] else []) = [] :=
    announcements_ite rfl rfl
  have hamounts : announcements (checkAmounts r) = [] := by
    rw [checkAmounts, announcements_append,
      announcements_flatMap fun e _ => announcements_checkAmount _ e,
      announcements_flatMap fun e _ => announcements_checkAmount _ e]
    rfl
  have hasked := announcements_checkDeductions hdeductions
  have hperiod : announcements (checkPeriod r asOf) = [] :=
    announcements_ite rfl rfl
  simp only [checkOvertime, announcements_append, hid, hsalary, hhours,
    hidle, hamounts, hasked, hperiod, List.nil_append, List.append_nil]

-- ================================================================ overtime

namespace Overtime

variable {hourlyRate : Decimal} {o : Overtime}

/-- The cut that a rule makes in the hours of its category is the one
that was announced. -/
theorem foretells_pay {c : Category} {hours : Decimal}
    {rule : OvertimeRule} {paid : Decimal × Option Warning}
    (hhours : r.overtimeHours.get? c = some hours)
    (hrule : s.overtimeRule? c = some rule)
    (h : pay rule hours = .ok paid) :
    List.Forall₂ (Foretells r s)
      (announcements (match rule.cap with
        | some cap =>
          if cap < hours then [.overtimeAboveCap c hours cap] else []
        | none => []))
      paid.2.toList := by
  have hcategory : rule.category = c := by
    have := List.find?_some hrule
    simpa using this
  unfold pay at h
  cases hcap : rule.cap with
  | none =>
      simp only [hcap] at h
      cases h
      exact .nil
  | some cap =>
      simp only [hcap] at h
      by_cases habove : cap < hours
      · rw [if_pos habove] at h
        obtain ⟨excess, hexcess, h⟩ := bind_eq_ok.1 h
        cases h
        simp only [if_pos habove, hcategory]
        exact .cons (.aboveCap hhours hrule hcap habove hexcess) .nil
      · rw [if_neg habove] at h
        cases h
        simp only [if_neg habove]
        exact .nil

theorem foretells_line {c : Category} {hours : Decimal}
    {l? : Option (OvertimeLine × Option Warning)}
    (hhours : r.overtimeHours.get? c = some hours)
    (h : line hourlyRate s.overtime c hours = .ok l?) :
    List.Forall₂ (Foretells r s)
      (announcements (checkCategory s (c, hours)))
      (l?.bind (·.2)).toList := by
  unfold line at h
  unfold checkCategory
  split at h
  · cases h
  · rename_i hnonneg
    rw [if_neg hnonneg]
    split at h
    · rename_i hzero
      cases h
      rw [if_pos hzero]
      exact .nil
    · rename_i hworked
      rw [if_neg hworked]
      split at h
      · cases h
      · rename_i rule hrule
        obtain ⟨paid, hpaid, h⟩ := bind_eq_ok.1 h
        rw [liftM_fault_eq_ok] at hpaid
        obtain ⟨base, -, h⟩ := bind_eq_ok.1 h
        obtain ⟨amount, -, h⟩ := bind_eq_ok.1 h
        cases h
        simp only [Snapshot.overtimeRule?, hrule]
        exact foretells_pay hhours hrule hpaid

/-- The cuts are announced category by category. -/
theorem foretells_entries {entries : List (Category × Decimal)}
    {found : List (Option (OvertimeLine × Option Warning))}
    (hhours : ∀ e ∈ entries, r.overtimeHours.get? e.1 = some e.2)
    (h : List.Forall₂ (fun (e : Category × Decimal) l =>
      line hourlyRate s.overtime e.1 e.2 = .ok l) entries found) :
    List.Forall₂ (Foretells r s)
      (announcements (entries.flatMap (checkCategory s)))
      ((found.filterMap id).filterMap (·.2)) := by
  induction h with
  | nil => exact .nil
  | @cons e l? entries found hline _ ih =>
      obtain ⟨hhead, htail⟩ := List.forall_mem_cons.1 hhours
      have hwarnings : ((l? :: found).filterMap id).filterMap (·.2)
          = (l?.bind (·.2)).toList
            ++ (found.filterMap id).filterMap (·.2) := by
        cases l? with
        | none => rfl
        | some l => cases hl : l.2 <;> simp [hl]
      rw [List.flatMap_cons, announcements_append, hwarnings]
      exact List.rel_append (foretells_line hhead hline) (ih htail)

theorem foretells_warnings
    (h : compute r.overtimeHours hourlyRate s.overtime = .ok o) :
    List.Forall₂ (Foretells r s)
      (announcements (r.overtimeHours.entries.flatMap (checkCategory s)))
      o.warnings := by
  unfold compute at h
  split at h
  · cases h
  · obtain ⟨found, hfound, h⟩ := bind_eq_ok.1 h
    obtain ⟨total, -, h⟩ := bind_eq_ok.1 h
    cases h
    exact foretells_entries (fun e he => ByCategory.mem_entries.1 he)
      (mapM_eq_ok.1 hfound)

end Overtime

-- ============================================================== attendance

namespace Adjustment

variable {dailyRate dayHours : Decimal} {policy : AttendancePolicy}
  {adjustment : Adjustment}

/-- The warnings and the call for approval follow from the attendance
alone. -/
theorem warnings_of_compute {a : Attendance}
    (h : compute a dailyRate policy dayHours = .ok adjustment) :
    adjustment.requiresApproval = (a.delayTier == .severe)
      ∧ adjustment.warnings
        = delayWarnings a.delayMinutes a.delayTier ++ absenceWarnings a := by
  unfold compute at h
  split at h
  · cases h
  · split at h
    · cases h
    · split at h
      · cases h
      · obtain ⟨share, -, h⟩ := bind_eq_ok.1 h
        obtain ⟨p, -, h⟩ := bind_eq_ok.1 h
        obtain ⟨d, -, h⟩ := bind_eq_ok.1 h
        cases h
        exact ⟨rfl, rfl⟩

/-- The delays above the longest moderate one are the severe ones. -/
theorem delayTier_eq_severe_iff {a : Attendance} :
    a.delayTier = .severe ↔ DelayTier.moderateMax < a.delayMinutes := by
  unfold Attendance.delayTier DelayTier.ofMinutes
  rw [← UInt32.not_le]
  constructor
  · intro h hle
    split_ifs at h
  · intro h
    have hzero : a.delayMinutes ≠ 0 := by
      rintro heq
      rw [heq] at h
      exact h (by decide)
    have hminor : ¬a.delayMinutes ≤ DelayTier.minorMax := fun hle =>
      h (UInt32.le_trans hle (by decide))
    rw [if_neg hzero, if_neg hminor, if_neg h]

theorem delay_le_of_free (hfree : ∀ f ∈ checkDelay r, f.blocks = false) :
    ¬maxDailyDelay < r.attendance.delayMinutes := by
  intro hday
  have := hfree (.delayExceedsDay r.attendance.delayMinutes) (by
    simp only [checkDelay, if_pos hday]
    exact List.mem_cons_self)
  cases this

/-- Of the warnings about a delay only that of a minor one is not
announced. -/
theorem foretells_delay
    (hfree : ∀ f ∈ checkDelay r, f.blocks = false) :
    List.Forall₂ (Foretells r s) (announcements (checkDelay r))
      ((delayWarnings r.attendance.delayMinutes
        r.attendance.delayTier).filter (·.code != "MINOR_DELAY")) := by
  simp only [checkDelay, if_neg (delay_le_of_free hfree)]
  cases htier : r.attendance.delayTier with
  | severe =>
      rw [if_pos (delayTier_eq_severe_iff.1 htier)]
      exact .cons (.severeDelay htier) .nil
  | onTime | minor | moderate =>
      have hmild : ¬DelayTier.moderateMax < r.attendance.delayMinutes := by
        rw [← delayTier_eq_severe_iff, htier]
        decide
      rw [if_neg hmild]
      exact .nil

/-- A delay that needs approval is announced as one. -/
theorem mem_announcements_of_severe
    (hfree : ∀ f ∈ checkDelay r, f.blocks = false)
    (htier : r.attendance.delayTier = .severe) :
    (Finding.delayRequiresApproval r.attendance.delayMinutes).issue
      ∈ announcements (checkDelay r) := by
  simp only [checkDelay, if_neg (delay_le_of_free hfree),
    if_pos (delayTier_eq_severe_iff.1 htier)]
  exact List.mem_cons_self

theorem foretells_absence
    (hfree : ∀ f ∈ checkAbsence r, f.blocks = false) :
    List.Forall₂ (Foretells r s) (announcements (checkAbsence r))
      (absenceWarnings r.attendance) := by
  have hnonneg : ¬r.attendance.absenceDays < .zero := by
    intro hneg
    have := hfree (.negativeAbsence r.attendance.absenceDays) (by
      simp only [checkAbsence, if_pos hneg]
      exact List.mem_cons_self)
    cases this
  have hdays : ¬r.period.dayCount < r.attendance.absenceDays := by
    intro hlong
    have := hfree (.absenceExceedsPeriod r.attendance.absenceDays r.period)
      (by
        simp only [checkAbsence, if_neg hnonneg, if_pos hlong]
        exact List.mem_cons_self)
    cases this
  simp only [checkAbsence, if_neg hnonneg, if_neg hdays, absenceWarnings]
  split
  · rename_i hpaid
    exact .cons (.paidAbsence hpaid.1 hpaid.2) .nil
  · exact .nil

end Adjustment

-- ============================================================ the payslip

/-- The warnings of a payslip are those of its overtime and of its
attendance. -/
theorem Stages.warnings_of_assembled (st : Stages r s rounding)
    {p : Payslip} (h : st.assembled = .ok p) :
    p.warnings = st.exactOvertime.warnings ++ st.exactAdjustment.warnings
      ∧ p.attendance.requiresApproval
        = st.exactAdjustment.requiresApproval := by
  obtain ⟨f, hf, h⟩ := bind_eq_ok.1 h
  cases h
  obtain ⟨-, -, -, -, hovertime, hadjustment⟩ :=
    Figures.compute_eq_ok.1 hf
  obtain ⟨total, -, hrounded⟩ := bind_eq_ok.1 st.overtime_ok
  have hcuts : st.overtime.warnings = st.exactOvertime.warnings := by
    rw [← Except.ok.inj hrounded]
  rw [Figures.payslip, ← hovertime, ← hadjustment, hcuts]
  exact ⟨rfl, rfl⟩

/-- The warnings of a validation foretell those of the payslip, one for
one and in order, and approval is asked for where it was announced. A
minor delay, which needs nobody's attention, is only reported. -/
theorem warnings_foretold (r : Request) (s : Snapshot)
    (rounding : Rounding) (asOf : Date) {p : Payslip}
    (h : calculateWith r s rounding asOf = .ok p) :
    ∃ report, validate r s asOf = .ok report ∧ report.valid = true
      ∧ List.Forall₂ (Foretells r s) report.warnings
        (p.warnings.filter (·.code != "MINOR_DELAY"))
      ∧ (p.attendance.requiresApproval = true
        ↔ ∃ i ∈ report.warnings, i.code = "DELAY_REQUIRES_APPROVAL") := by
  obtain ⟨report, hreport, hvalid, st, hst⟩ :=
    calculateWith_eq_ok_assembled.1 h
  refine ⟨report, hreport, hvalid, ?_⟩
  obtain ⟨found, hfound, hwarnings⟩ := warnings_of_validate hreport
  have hfree : ∀ f ∈ found, f.blocks = false := by
    obtain ⟨⟨found', hfound', hfree⟩, -⟩ := of_valid hreport hvalid
    cases hfound.symm.trans hfound'
    exact hfree
  obtain ⟨rest, rfl, hrest⟩ := examine_eq_ok hfound
  rw [announcements_append, announcements_append, hrest] at hwarnings
  have hovertime := Overtime.foretells_warnings st.exactOvertime_ok
  have hlate : ∀ f ∈ checkDelay r, f.blocks = false :=
    fun f hf => hfree f (by simp [hf])
  have habsent : ∀ f ∈ checkAbsence r, f.blocks = false :=
    fun f hf => hfree f (by simp [hf])
  have hdelay : List.Forall₂ (Foretells r s) _ _ :=
    Adjustment.foretells_delay hlate
  have habsence : List.Forall₂ (Foretells r s) _ _ :=
    Adjustment.foretells_absence habsent
  have hpairs := List.rel_append (List.rel_append hovertime hdelay) habsence
  obtain ⟨happroval, hattendance⟩ :=
    Adjustment.warnings_of_compute st.adjustment_ok
  obtain ⟨hpayslip, hsummary⟩ := st.warnings_of_assembled hst
  rw [hwarnings, hpayslip, hattendance, hsummary, happroval, beq_iff_eq,
    List.filter_append, List.filter_append,
    filter_of_foretells hovertime, filter_of_foretells habsence,
    ← List.append_assoc]
  refine ⟨hpairs, fun htier => ?_, ?_⟩
  · have hmem := Adjustment.mem_announcements_of_severe hlate htier
    exact ⟨_, List.mem_append_left _ (List.mem_append_right _ hmem), rfl⟩
  · rintro ⟨i, hi, hcode⟩
    obtain ⟨w, -, hpair⟩ := exists_foretold hpairs hi
    exact hpair.severe hcode

/-- A month with everything that is announced: overtime above its cap, a
severe delay and paid leave, beside overtime within its cap. -/
def Senegal.guard : Request :=
  { employeeId := "G-1"
    period := .of 2024 5
    baseSalary := 300000
    regularHours := 160
    overtimeHours := { regular := some 45.5, night := some 4 }
    attendance :=
      { delayMinutes := 75, absenceDays := 1.5, paidAbsence := true } }

/-- All three warnings of the guard's payslip are foretold. -/
theorem warnings_foretold_guard :
    ∃ p, calculateWith Senegal.guard Senegal.snapshot { places := 0 }
        { year := 2024, month := 6, day := 3 } = .ok p
      ∧ p.warnings.length = 3
      ∧ ∃ report, validate Senegal.guard Senegal.snapshot
          { year := 2024, month := 6, day := 3 } = .ok report
        ∧ report.valid = true
        ∧ List.Forall₂ (Foretells Senegal.guard Senegal.snapshot)
          report.warnings (p.warnings.filter (·.code != "MINOR_DELAY"))
        ∧ (p.attendance.requiresApproval = true
          ↔ ∃ i ∈ report.warnings, i.code = "DELAY_REQUIRES_APPROVAL") := by
  have hpaid : (calculateWith Senegal.guard Senegal.snapshot
      { places := 0 } { year := 2024, month := 6, day := 3 }).toOption.any
        (fun p => decide (p.warnings.length = 3)) = true := by
    decide +kernel
  obtain ⟨p, hp, hcount⟩ := exists_ok_of_any hpaid
  exact ⟨p, hp, of_decide_eq_true hcount, warnings_foretold _ _ _ _ hp⟩

end Payroll
