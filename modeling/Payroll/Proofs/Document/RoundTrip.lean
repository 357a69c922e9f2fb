/-
What leaves as a document can be read back. Every record is read field
by field from what was written for the field, so a request and a
payslip return whole: names, texts, dates, step numbers and inputs as
they were, and every amount with its value and its scale.

What does not return is the minus of a zero, which readers pass over.
So a record is read back as itself without those (`unsigned`), and that
is equal to it, amounts being compared by value (`Equal`).

One thing is written that no reader takes: the period of a year that has
not four digits.
-/
import Payroll.Proofs.Document.Records
import Payroll.Proofs.Payslip.Trace

namespace Payroll

open Document Shape

-- =============================================================== equality

/-- Maps of the same names with equal amounts. -/
def Named.Equal (m m' : Named Decimal) : Prop :=
  List.Forall₂ (fun e e' => e.1 = e'.1 ∧ e.2 ≈ e'.2) m.entries m'.entries

/-- Maps of the same categories with equal amounts. -/
def ByCategory.Equal (m m' : ByCategory Decimal) : Prop :=
  ∀ c, Option.Rel (· ≈ ·) (m.get? c) (m'.get? c)

theorem Named.unsigned_equal (m : Named Decimal) : m.unsigned.Equal m :=
  List.forall₂_map_left_iff.2
    (List.forall₂_same.2 fun e _ => ⟨rfl, e.2.unsigned_equiv⟩)

theorem ByCategory.get?_unsigned (m : ByCategory Decimal) (c : Category) :
    m.unsigned.get? c = (m.get? c).map Decimal.unsigned := by
  cases c <;> rfl

theorem ByCategory.unsigned_equal (m : ByCategory Decimal) :
    m.unsigned.Equal m := by
  intro c
  rw [m.get?_unsigned]
  cases m.get? c with
  | none => exact .none
  | some a => exact .some a.unsigned_equiv

-- ============================================================= attendance

namespace Attendance

structure Equal (a a' : Attendance) : Prop where
  delayMinutes : a.delayMinutes = a'.delayMinutes
  absenceDays : a.absenceDays ≈ a'.absenceDays
  paidAbsence : a.paidAbsence = a'.paidAbsence

def unsigned (a : Attendance) : Attendance :=
  { a with absenceDays := a.absenceDays.unsigned }

theorem unsigned_equal (a : Attendance) : a.unsigned.Equal a where
  delayMinutes := rfl
  absenceDays := a.absenceDays.unsigned_equiv
  paidAbsence := rfl

theorem ofDocument_toDocument (a : Attendance) :
    ofDocument a.toDocument = .ok a.unsigned := by
  unfold ofDocument toDocument unsigned
  refine read_record rfl (by decide) ?_
  -- here and below the fields are gone through from the last to the first
  unfold shape
  refine build_seq ?_ (build_withDefault rfl rfl)
  refine build_seq ?_ (build_withDefault rfl (asDecimal_ofDecimal _))
  exact build_map _ (build_withDefault rfl (asUInt32_ofNat _))

end Attendance

-- ================================================================ requests

namespace Request

structure Equal (r r' : Request) : Prop where
  employeeId : r.employeeId = r'.employeeId
  period : r.period = r'.period
  baseSalary : r.baseSalary ≈ r'.baseSalary
  regularHours : r.regularHours ≈ r'.regularHours
  overtimeHours : r.overtimeHours.Equal r'.overtimeHours
  allowances : r.allowances.Equal r'.allowances
  deductions : r.deductions.Equal r'.deductions
  attendance : r.attendance.Equal r'.attendance

def unsigned (r : Request) : Request :=
  { r with
    baseSalary := r.baseSalary.unsigned
    regularHours := r.regularHours.unsigned
    overtimeHours := r.overtimeHours.unsigned
    allowances := r.allowances.unsigned
    deductions := r.deductions.unsigned
    attendance := r.attendance.unsigned }

theorem unsigned_equal (r : Request) : r.unsigned.Equal r where
  employeeId := rfl
  period := rfl
  baseSalary := r.baseSalary.unsigned_equiv
  regularHours := r.regularHours.unsigned_equiv
  overtimeHours := r.overtimeHours.unsigned_equal
  allowances := r.allowances.unsigned_equal
  deductions := r.deductions.unsigned_equal
  attendance := r.attendance.unsigned_equal

theorem ofDocument_toDocument (r : Request) (h₀ : 0 ≤ r.period.year)
    (h₁ : r.period.year ≤ 9999) :
    ofDocument r.toDocument = .ok r.unsigned := by
  unfold ofDocument toDocument unsigned
  refine read_record rfl (by decide) ?_
  unfold shape
  refine build_seq ?_ (build_withDefault rfl r.attendance.ofDocument_toDocument)
  refine build_seq ?_ (build_withDefault rfl (asNamed_ofNamed _))
  refine build_seq ?_ (build_withDefault rfl (asNamed_ofNamed _))
  refine build_seq ?_ (build_withDefault rfl (asByCategory_ofByCategory _))
  refine build_seq ?_ (build_required rfl (asDecimal_ofDecimal _))
  refine build_seq ?_ (build_required rfl (asDecimal_ofDecimal _))
  refine build_seq ?_ (build_required rfl (asPeriod_toText _ h₀ h₁))
  exact build_map _ (build_required rfl rfl)

end Request

-- ================================================================ payslips

namespace Warning

theorem ofDocument_toDocument (w : Warning) :
    ofDocument w.toDocument = .ok w := by
  obtain ⟨code, message, severity⟩ := w
  unfold ofDocument toDocument
  refine read_record rfl (by decide) ?_
  unfold shape
  refine build_seq ?_ (build_required rfl (asSeverity_name _))
  refine build_seq ?_ (build_required rfl rfl)
  exact build_map _ (build_required rfl rfl)

end Warning

namespace AttendanceSummary

structure Equal (a a' : AttendanceSummary) : Prop where
  tier : a.tier = a'.tier
  delayMinutes : a.delayMinutes = a'.delayMinutes
  delayPenalty : a.delayPenalty ≈ a'.delayPenalty
  absenceDays : a.absenceDays ≈ a'.absenceDays
  paidAbsenceDays : a.paidAbsenceDays ≈ a'.paidAbsenceDays
  absenceDeduction : a.absenceDeduction ≈ a'.absenceDeduction
  requiresApproval : a.requiresApproval = a'.requiresApproval

def unsigned (a : AttendanceSummary) : AttendanceSummary :=
  { a with
    delayPenalty := a.delayPenalty.unsigned
    absenceDays := a.absenceDays.unsigned
    paidAbsenceDays := a.paidAbsenceDays.unsigned
    absenceDeduction := a.absenceDeduction.unsigned }

theorem unsigned_equal (a : AttendanceSummary) : a.unsigned.Equal a where
  tier := rfl
  delayMinutes := rfl
  delayPenalty := a.delayPenalty.unsigned_equiv
  absenceDays := a.absenceDays.unsigned_equiv
  paidAbsenceDays := a.paidAbsenceDays.unsigned_equiv
  absenceDeduction := a.absenceDeduction.unsigned_equiv
  requiresApproval := rfl

theorem ofDocument_toDocument (a : AttendanceSummary) :
    ofDocument a.toDocument = .ok a.unsigned := by
  unfold ofDocument toDocument unsigned
  refine read_record rfl (by decide) ?_
  unfold shape
  refine build_seq ?_ (build_required rfl rfl)
  refine build_seq ?_ (build_required rfl (asDecimal_ofDecimal _))
  refine build_seq ?_ (build_required rfl (asDecimal_ofDecimal _))
  refine build_seq ?_ (build_required rfl (asDecimal_ofDecimal _))
  refine build_seq ?_ (build_required rfl (asDecimal_ofDecimal _))
  refine build_seq ?_ (build_required rfl (asUInt32_ofNat _))
  exact build_map _ (build_required rfl (asDelayTier_name _))

end AttendanceSummary

namespace Detail

structure Equal (d d' : Detail) : Prop where
  stepNumber : d.stepNumber = d'.stepNumber
  ruleId : d.ruleId = d'.ruleId
  label : d.label = d'.label
  formula : d.formula = d'.formula
  amount : d.amount ≈ d'.amount
  inputs : d.inputs = d'.inputs

def unsigned (d : Detail) : Detail := { d with amount := d.amount.unsigned }

theorem unsigned_equal (d : Detail) : d.unsigned.Equal d where
  stepNumber := rfl
  ruleId := rfl
  label := rfl
  formula := rfl
  amount := d.amount.unsigned_equiv
  inputs := rfl

theorem ofDocument_toDocument (d : Detail) :
    ofDocument d.toDocument = .ok d.unsigned := by
  unfold ofDocument toDocument unsigned
  refine read_record rfl (by decide) ?_
  unfold shape
  refine build_seq ?_ (build_required rfl rfl)
  refine build_seq ?_ (build_required rfl (asDecimal_ofDecimal _))
  refine build_seq ?_ (build_required rfl rfl)
  refine build_seq ?_ (build_required rfl rfl)
  refine build_seq ?_ (build_required rfl rfl)
  exact build_map _ (build_required rfl (asUInt32_ofNat _))

end Detail

namespace Payslip

structure Equal (p p' : Payslip) : Prop where
  employeeId : p.employeeId = p'.employeeId
  period : p.period = p'.period
  rulesEffectiveDate : p.rulesEffectiveDate = p'.rulesEffectiveDate
  baseSalary : p.baseSalary ≈ p'.baseSalary
  grossSalary : p.grossSalary ≈ p'.grossSalary
  taxableIncome : p.taxableIncome ≈ p'.taxableIncome
  incomeTax : p.incomeTax ≈ p'.incomeTax
  contributions : p.contributions.Equal p'.contributions
  employerContributions :
    p.employerContributions.Equal p'.employerContributions
  overtimeAmounts : p.overtimeAmounts.Equal p'.overtimeAmounts
  totalOvertime : p.totalOvertime ≈ p'.totalOvertime
  totalAllowances : p.totalAllowances ≈ p'.totalAllowances
  totalDeductions : p.totalDeductions ≈ p'.totalDeductions
  netSalary : p.netSalary ≈ p'.netSalary
  attendance : p.attendance.Equal p'.attendance
  warnings : p.warnings = p'.warnings
  details : List.Forall₂ Detail.Equal p.details p'.details

def unsigned (p : Payslip) : Payslip :=
  { p with
    baseSalary := p.baseSalary.unsigned
    grossSalary := p.grossSalary.unsigned
    taxableIncome := p.taxableIncome.unsigned
    incomeTax := p.incomeTax.unsigned
    contributions := p.contributions.unsigned
    employerContributions := p.employerContributions.unsigned
    overtimeAmounts := p.overtimeAmounts.unsigned
    totalOvertime := p.totalOvertime.unsigned
    totalAllowances := p.totalAllowances.unsigned
    totalDeductions := p.totalDeductions.unsigned
    netSalary := p.netSalary.unsigned
    attendance := p.attendance.unsigned
    details := p.details.map Detail.unsigned }

theorem unsigned_equal (p : Payslip) : p.unsigned.Equal p where
  employeeId := rfl
  period := rfl
  rulesEffectiveDate := rfl
  baseSalary := p.baseSalary.unsigned_equiv
  grossSalary := p.grossSalary.unsigned_equiv
  taxableIncome := p.taxableIncome.unsigned_equiv
  incomeTax := p.incomeTax.unsigned_equiv
  contributions := p.contributions.unsigned_equal
  employerContributions := p.employerContributions.unsigned_equal
  overtimeAmounts := p.overtimeAmounts.unsigned_equal
  totalOvertime := p.totalOvertime.unsigned_equiv
  totalAllowances := p.totalAllowances.unsigned_equiv
  totalDeductions := p.totalDeductions.unsigned_equiv
  netSalary := p.netSalary.unsigned_equiv
  attendance := p.attendance.unsigned_equal
  warnings := rfl
  details := List.forall₂_map_left_iff.2
    (List.forall₂_same.2 fun d _ => d.unsigned_equal)

theorem ofDocument_toDocument (p : Payslip) (h₀ : 0 ≤ p.period.year)
    (h₁ : p.period.year ≤ 9999) :
    ofDocument p.toDocument = .ok p.unsigned := by
  have hwarnings : (list (p.warnings.map (·.toDocument))).asList
      Warning.ofDocument = .ok p.warnings := by
    rw [asList_written (f := id) fun w _ => w.ofDocument_toDocument,
      List.map_id]
  have hdetails : (list (p.details.map (·.toDocument))).asList
      Detail.ofDocument = .ok (p.details.map Detail.unsigned) :=
    asList_written fun d _ => d.ofDocument_toDocument
  unfold ofDocument toDocument unsigned
  refine read_record rfl (by decide) ?_
  unfold shape
  refine build_seq ?_ (build_required rfl hdetails)
  refine build_seq ?_ (build_required rfl hwarnings)
  refine build_seq ?_ (build_required rfl p.attendance.ofDocument_toDocument)
  refine build_seq ?_ (build_required rfl (asDecimal_ofDecimal _))
  refine build_seq ?_ (build_required rfl (asDecimal_ofDecimal _))
  refine build_seq ?_ (build_required rfl (asDecimal_ofDecimal _))
  refine build_seq ?_ (build_required rfl (asDecimal_ofDecimal _))
  refine build_seq ?_ (build_required rfl (asByCategory_ofByCategory _))
  refine build_seq ?_ (build_required rfl (asNamed_ofNamed _))
  refine build_seq ?_ (build_required rfl (asNamed_ofNamed _))
  refine build_seq ?_ (build_required rfl (asDecimal_ofDecimal _))
  refine build_seq ?_ (build_required rfl (asDecimal_ofDecimal _))
  refine build_seq ?_ (build_required rfl (asDecimal_ofDecimal _))
  refine build_seq ?_ (build_required rfl (asDecimal_ofDecimal _))
  refine build_seq ?_ (build_required rfl (asDate_toText _))
  refine build_seq ?_ (build_required rfl (asPeriod_toText _ h₀ h₁))
  exact build_map _ (build_required rfl rfl)

end Payslip

-- ======================================================= the calculation

/-- A request of a year with four digits is read back from its document,
and so is every payslip that is computed for it. -/
theorem documents_read_back (r : Request) (h₀ : 0 ≤ r.period.year)
    (h₁ : r.period.year ≤ 9999) :
    (∃ r', Request.ofDocument r.toDocument = .ok r' ∧ r'.Equal r)
      ∧ ∀ (book : RuleBook) (asOf : Date) (p : Payslip),
        calculate r book asOf = .ok p →
        ∃ p', Payslip.ofDocument p.toDocument = .ok p' ∧ p'.Equal p := by
  refine ⟨⟨_, r.ofDocument_toDocument h₀ h₁, r.unsigned_equal⟩, ?_⟩
  intro book asOf p hp
  obtain ⟨s, -, st, t, rfl⟩ := exists_settlement hp
  exact ⟨_, t.payslip.ofDocument_toDocument h₀ h₁,
    t.payslip.unsigned_equal⟩

/-- The manager's payslip returns with its warnings and its trace. -/
theorem documents_read_back_manager :
    0 ≤ Senegal.manager.period.year ∧ Senegal.manager.period.year ≤ 9999
      ∧ (∃ r', Request.ofDocument Senegal.manager.toDocument = .ok r'
        ∧ r'.Equal Senegal.manager)
      ∧ ∃ p, calculate Senegal.manager Senegal.book
          { year := 2024, month := 6, day := 3 } = .ok p
        ∧ p.warnings ≠ []
        ∧ ∃ p', Payslip.ofDocument p.toDocument = .ok p' ∧ p'.Equal p := by
  have hread := documents_read_back Senegal.manager (by decide) (by decide)
  have hpaid : (calculate Senegal.manager Senegal.book
      { year := 2024, month := 6, day := 3 }).toOption.any
        (fun p => decide (p.warnings ≠ [])) = true := by
    decide +kernel
  obtain ⟨p, hp, hwarnings⟩ := exists_ok_of_any hpaid
  exact ⟨by decide, by decide, hread.1, p, hp, of_decide_eq_true hwarnings,
    hread.2 _ _ p hp⟩

end Payroll
