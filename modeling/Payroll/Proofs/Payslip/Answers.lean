/-
Where a calculation answers. The arithmetic of a payslip ends in a
fault only where amounts outgrow what an amount can hold. Divisors are
positive in the snapshots of every book, so there never is a division
by zero; and where request and rules are of ordinary size, every sum
and every product on the way has room, so the calculation comes to a
payslip or to an error that says what is wrong (`calculate_answers`).

Sizes do matter. Only two steps look whether their result exists: the
estimate where it adds the allowances to the salary, and the tax where
it makes an income one of a year. A fault anywhere else is passed on,
and that begins with the first sum of all: allowances that have none
end the calculation inside the very check that should report on the
request (`calculate_of_totalAllowances_fault`).

The order is that of the calculation: each bound goes through estimate
and validation first, then through the stages and the settlement.
-/
import Payroll.Proofs.Payslip.Sizes
import Payroll.Proofs.Payslip.Statutory

namespace Payroll

open Decimal

variable {r : Request} {s : Snapshot} {S : Prop}

/-- A request and a snapshot of ordinary size, where `S` is kept. The
snapshot has passed its check in any case. -/
structure Ordinary (S : Prop) (r : Request) (s : Snapshot) : Prop where
  request : S → r.Sized
  snapshot : S → s.Sized
  proper : s.Proper
  divisible : s.Divisible

namespace Ordinary

variable (h : Ordinary S r s)
include h

theorem ends_fixedPay {allowances : Decimal}
    (hallowances : Within S (10 ^ 20) allowances) :
    Ends (Fault.Excused S) (Within S (2 * 10 ^ 20))
      (r.baseSalary.add allowances) :=
  (r.within_baseSalary h.request).add hallowances

theorem ends_overtime {hourlyRate : Decimal}
    (hrate : Within S (10 ^ 15) hourlyRate) :
    Ends (Failure.Excused S) (Overtime.Sized S)
      (Overtime.compute r.overtimeHours hourlyRate s.overtime) :=
  Overtime.ends_compute h.proper.overtime
    (fun hS => (h.snapshot hS).multiplier) hrate
    fun e he hS => by exact_mod_cast (h.request hS).overtimeHours e he

theorem ends_contributions {gross : Decimal}
    (hgross : Within S (10 ^ 21) gross) :
    Ends (Failure.Excused S) (Contributions.Sized S)
      (Contributions.compute gross s.contributions) :=
  Contributions.ends_compute h.proper.contributions
    (fun hS => (h.snapshot hS).schemes) hgross

theorem ends_assess {income : Decimal}
    (hincome : Within S (2 * 10 ^ 26) income) :
    Ends (Failure.Excused S) (fun t => Within S (4 * 10 ^ 27) t.tax)
      (s.incomeTax.assess income) :=
  s.incomeTax.ends_assess (fun hS => (h.snapshot hS).fixedAmounts) hincome

theorem ends_adjustment {dailyRate : Decimal}
    (hrate : Within S (10 ^ 15) dailyRate) :
    Ends (Failure.Excused S) (Adjustment.Sized S)
      (Adjustment.compute r.attendance dailyRate s.attendance
        s.dailyHours) :=
  Adjustment.ends_compute h.proper.attendance
    (fun hS => (h.snapshot hS).escalation)
    (fun hS => (h.request hS).absenceDays) hrate
    h.divisible.dailyHours_le fun hS => (h.snapshot hS).dailyHours

-- ============================================================= the bounds

/-- A sum that is looked at before it is used. -/
theorem within_fixedPay {allowances : Decimal}
    (hallowances : Within S (10 ^ 20) allowances) :
    ∀ a ∈ r.baseSalary.add? allowances, Within S (2 * 10 ^ 20) a :=
  mem_of_ends (h.ends_fixedPay hallowances)

/-- Bounds of ordinary size. -/
theorem ends_bounds : EndsIfSome S
    (fun b => Within S (7 * 10 ^ 27) b.deductions
      ∧ Within S (5 * 10 ^ 27) b.withholdings)
    (NetBounds.compute r s) := by
  unfold NetBounds.compute
  refine (EndsIfSome.lift (Request.ends_totalAllowances h.request)).bind
    fun allowances hallowances => ?_
  refine (EndsIfSome.mk (h.within_fixedPay hallowances)).bind
    fun fixedPay hfixed => ?_
  have hsalary := r.within_baseSalary h.request
  refine (EndsIfSome.lift (s.ends_hourlyRate h.divisible h.snapshot
    hsalary)).bind fun hourlyRate hhourly => ?_
  refine (EndsIfSome.attempt (h.ends_overtime hhourly)).bind
    fun overtime hovertime => ?_
  refine (EndsIfSome.lift (hovertime.ends_sum fun l hl =>
    (hovertime.amount l hl).floor)).bind fun least hleast => ?_
  refine (EndsIfSome.lift (hovertime.ends_sum fun l hl =>
    (hovertime.amount l hl).ceil)).bind fun most hmost => ?_
  refine (EndsIfSome.lift (hfixed.add hleast (k := 10 ^ 21))).bind
    fun grossFloor hfloor => ?_
  refine (EndsIfSome.lift (hfixed.add hmost (k := 10 ^ 21))).bind
    fun grossCeiling hceiling => ?_
  refine (EndsIfSome.attempt (h.ends_contributions hfloor)).bind
    fun fewest hfewest => ?_
  refine (EndsIfSome.attempt (h.ends_contributions hceiling)).bind
    fun greatest hgreatest => ?_
  refine (EndsIfSome.lift (hfewest.ends_sum fun _ ha => ha.floor)).bind
    fun employeeFloor hemployeeFloor => ?_
  refine (EndsIfSome.lift (hgreatest.ends_sum fun _ ha => ha.ceil)).bind
    fun employeeCeiling hemployeeCeiling => ?_
  refine (EndsIfSome.lift (s.incomeTax.base.ends_taxableIncome hceiling
    hemployeeFloor)).bind fun taxable htaxable => ?_
  refine (EndsIfSome.attempt (h.ends_assess htaxable)).bind
    fun assessed htax => ?_
  refine (EndsIfSome.lift (s.ends_dailyRate h.divisible h.snapshot
    hsalary)).bind fun dailyRate hdaily => ?_
  refine (EndsIfSome.attempt (h.ends_adjustment hdaily)).bind
    fun adjustment hadjustment => ?_
  refine (EndsIfSome.lift (htax.ceil.add hemployeeCeiling
    (k := 5 * 10 ^ 27))).bind fun withholdings hwithholdings => ?_
  refine (EndsIfSome.lift (Request.ends_totalDeductions h.request)).bind
    fun explicit hexplicit => ?_
  refine (EndsIfSome.lift (hexplicit.add hadjustment.delayPenalty.ceil
    (k := 6 * 10 ^ 27))).bind fun penalized hpenalized => ?_
  refine (EndsIfSome.lift (hpenalized.add
    hadjustment.absenceDeduction.ceil (k := 7 * 10 ^ 27))).bind
      fun deductions hdeductions => ?_
  rintro _ ⟨⟩
  exact ⟨hdeductions, hwithholdings⟩

-- ============================================================= validation

theorem ends_examine (asOf : Date) :
    Ends (Fault.Excused S) (fun _ => True)
      (Validation.examine r s asOf) := by
  have hcheck : Ends (Fault.Excused S) (fun _ => True)
      (Validation.checkDeductions r) := by
    unfold Validation.checkDeductions
    refine (Request.ends_totalAllowances h.request).bind
      fun allowances hallowances => ?_
    refine (h.ends_fixedPay hallowances).bind fun gross _ => ?_
    exact (Request.ends_totalDeductions h.request).bind
      fun deductions _ => trivial
  exact hcheck.bind fun _ _ => trivial

theorem ends_validate (asOf : Date) :
    Ends (Crash.Excused S) (fun _ => True) (validate r s asOf) := by
  unfold validate
  refine (h.ends_examine asOf).toCrash.bind fun found _ => ?_
  split
  · trivial
  · refine Ends.bind h.ends_bounds fun estimated hbounds => ?_
    cases estimated with
    | none => trivial
    | some bounds =>
        obtain ⟨hdeductions, hwithholdings⟩ := hbounds bounds rfl
        have hmore : Ends (Fault.Excused S) (fun _ => True)
            (Validation.checkBounds bounds) := by
          unfold Validation.checkBounds
          split
          · trivial
          · exact (hdeductions.add hwithholdings (k := 12 * 10 ^ 27)).bind
              fun _ _ => trivial
        exact hmore.toCrash.bind fun _ _ => trivial

end Ordinary

-- ========================================================= the settlement

theorem Figures.ends_compute (hr : S → r.Sized) {tax : TaxAssessment}
    {contributions : Contributions} {overtime : Overtime}
    {adjustment : Adjustment} (htax : Within S (4 * 10 ^ 27) tax.tax)
    (hwithheld : Ends (Fault.Excused S) (Within S (10 ^ 26))
      contributions.employeeTotal)
    (hovertime : overtime.Sized S)
    (htotal : Within S (4 * 10 ^ 20) overtime.total)
    (hadjustment : adjustment.Sized S) :
    Ends (Failure.Excused S) (fun _ => True)
      (compute r tax contributions overtime adjustment) := by
  unfold compute
  refine hovertime.ends_values.toFailure.bind fun sum _ => ?_
  split
  · trivial
  refine (Request.ends_totalAllowances hr).toFailure.bind
    fun allowances hallowances => ?_
  refine ((r.within_baseSalary hr).add hallowances
    (k := 2 * 10 ^ 20)).toFailure.bind fun fixedPay hfixed => ?_
  refine (hfixed.add htotal (k := 10 ^ 21)).toFailure.bind
    fun gross hgross => ?_
  refine hwithheld.toFailure.bind fun withheld hwithheld => ?_
  refine (Request.ends_totalDeductions hr).toFailure.bind
    fun explicit hexplicit => ?_
  refine hadjustment.ends_total.toFailure.bind fun adjusted hadjusted => ?_
  refine (hexplicit.add hadjusted (k := 7 * 10 ^ 27)).toFailure.bind
    fun deductions hdeductions => ?_
  split
  · trivial
  refine (hgross.sub htax (k := 5 * 10 ^ 27)).toFailure.bind
    fun afterTax hafterTax => ?_
  refine (hafterTax.sub hwithheld (k := 6 * 10 ^ 27)).toFailure.bind
    fun afterContributions hafter => ?_
  refine (hafter.sub hdeductions (k := 13 * 10 ^ 27)).toFailure.bind
    fun net _ => ?_
  split <;> trivial

-- ======================================================== the calculation

theorem Ordinary.ends_calculateWith (h : Ordinary S r s)
    (rounding : Rounding) (asOf : Date) :
    Ends (Failure.Excused S) (fun _ => True)
      (calculateWith r s rounding asOf) := by
  unfold calculateWith
  refine (h.ends_validate asOf).crashToFailure.bind fun report _ => ?_
  split
  · trivial
  have hsalary := r.within_baseSalary h.request
  refine (s.ends_hourlyRate h.divisible h.snapshot
    hsalary).toFailure.bind fun hourlyRate hhourly => ?_
  refine (h.ends_overtime hhourly).bind fun exactOvertime hexact => ?_
  refine (hexact.ends_rounded rounding).toFailure.bind
    fun overtime ⟨hovertime, htotal⟩ => ?_
  refine (Request.ends_totalAllowances h.request).toFailure.bind
    fun allowances hallowances => ?_
  refine (h.ends_fixedPay hallowances).toFailure.bind
    fun fixedPay hfixed => ?_
  refine (hfixed.add htotal (k := 10 ^ 21)).toFailure.bind
    fun gross hgross => ?_
  refine (h.ends_contributions hgross).bind
    fun exactContributions hcontributions => ?_
  have hemployee := hcontributions.ends_employeeTotal rounding
  refine hemployee.toFailure.bind fun withheld hwithheld => ?_
  refine (s.incomeTax.base.ends_taxableIncome hgross
    hwithheld).toFailure.bind fun taxable htaxable => ?_
  refine (h.ends_assess htaxable).bind fun exactTax htax => ?_
  refine (s.ends_dailyRate h.divisible h.snapshot
    hsalary).toFailure.bind fun dailyRate hdaily => ?_
  refine (h.ends_adjustment hdaily).bind
    fun exactAdjustment hadjustment => ?_
  have htax' : Within S (4 * 10 ^ 27) (exactTax.rounded rounding).tax :=
    htax.round rounding
  exact (Figures.ends_compute h.request htax' hemployee hovertime htotal
    (hadjustment.rounded rounding)).bind fun _ _ => trivial

/-- Under the rules of a book a calculation has the excuse of its
request and of the rules of its period. -/
theorem ends_calculate (book : RuleBook) (asOf : Date) :
    Ends (Failure.Excused (r.Sized
        ∧ ∀ s, book.snapshotFor r.period = .ok s → s.Sized))
      (fun _ => True) (calculate r book asOf) := by
  unfold calculate
  split
  · trivial
  · rename_i s hs
    obtain ⟨hmem, -, -⟩ := RuleBook.snapshotFor_eq_ok hs
    have hcheck := book.checked s hmem
    have h : Ordinary (r.Sized
        ∧ ∀ s', book.snapshotFor r.period = .ok s' → s'.Sized) r s :=
      { request := And.left
        snapshot := fun hS => hS.2 s hs
        proper := Snapshot.proper_of_check hcheck
        divisible := Snapshot.divisible_of_check hcheck }
    exact h.ends_calculateWith book.rounding asOf

/-- Allowances without a sum end every calculation, also one that would
be rejected for another reason. -/
theorem calculate_of_totalAllowances_fault {book : RuleBook} {asOf : Date}
    {f : Fault} (hs : book.snapshotFor r.period = .ok s)
    (h : r.totalAllowances = .error f) :
    calculate r book asOf = .error (.crash (.fault f)) := by
  have hexamine : Validation.examine r s asOf = .error f := by
    unfold Validation.examine Validation.checkDeductions
    rw [h]
    rfl
  have hvalidate : validate r s asOf = .error (.fault f) := by
    unfold validate
    rw [hexamine]
    rfl
  unfold calculate
  rw [hs]
  show calculateWith r s book.rounding asOf = _
  unfold calculateWith
  rw [hvalidate]
  rfl

/-- A calculation without an answer met a fault of arithmetic, and no
division by zero. A request and rules of ordinary size have an answer:
a payslip or an error. -/
theorem calculate_answers (book : RuleBook) (r : Request) (asOf : Date) :
    (∀ c, calculate r book asOf = .error (.crash c) →
      ∃ f : Fault, c = .fault f ∧ f ≠ .divisionByZero)
    ∧ (r.Sized →
      (∀ s, book.snapshotFor r.period = .ok s → s.Sized) →
      (∃ p, calculate r book asOf = .ok p)
        ∨ ∃ e, calculate r book asOf = .error (.error e)) := by
  have hends := ends_calculate (r := r) book asOf
  cases hresult : calculate r book asOf with
  | ok p => exact ⟨nofun, fun _ _ => .inl ⟨p, rfl⟩⟩
  | error e =>
      cases e with
      | error e => exact ⟨nofun, fun _ _ => .inr ⟨e, rfl⟩⟩
      | crash c =>
          rw [hresult] at hends
          obtain ⟨f, rfl, hzero, hlarge⟩ := hends
          refine ⟨?_, fun hr hs => absurd ⟨hr, hs⟩ hlarge⟩
          rintro _ ⟨⟩
          exact ⟨f, rfl, hzero⟩

/-- A request for no salary, with allowances that have no sum. -/
def Senegal.overpaid : Request :=
  { employeeId := "E-1"
    period := .of 2024 3
    baseSalary := 0
    regularHours := 160
    allowances :=
      .ofList [("a", 79228162514264337593543950335), ("b", 1)] }

theorem Senegal.totalAllowances_overpaid :
    Senegal.overpaid.totalAllowances = .error .additionOverflow := by
  decide +kernel

theorem Senegal.sized_manager : Senegal.manager.Sized where
  baseSalary := by decide +kernel
  allowances := by decide +kernel
  allowances_length := by decide +kernel
  deductions := by decide +kernel
  deductions_length := by decide +kernel
  overtimeHours := by decide +kernel
  absenceDays := by decide +kernel

theorem Senegal.sized_snapshot : Senegal.snapshot.Sized where
  monthlyHours := by decide +kernel
  workingDays := by decide +kernel
  dailyHours := by decide +kernel
  multiplier := by decide +kernel
  escalation := by decide +kernel
  schemes := by decide +kernel
  fixedAmounts := by decide +kernel

/-- The manager's calculation has an answer. The calculation without one
ends in a fault that is no division by zero. -/
theorem calculate_answers_manager :
    ((∃ p, calculate Senegal.manager Senegal.book
        { year := 2024, month := 6, day := 3 } = .ok p)
      ∨ ∃ e, calculate Senegal.manager Senegal.book
        { year := 2024, month := 6, day := 3 } = .error (.error e))
    ∧ ∃ f : Fault, Crash.fault .additionOverflow = .fault f
      ∧ f ≠ .divisionByZero := by
  have hsnapshot : Senegal.book.snapshotFor Senegal.manager.period
      = .ok Senegal.snapshot := by
    decide +kernel
  constructor
  · refine (calculate_answers Senegal.book Senegal.manager _).2
      Senegal.sized_manager fun s hs => ?_
    rw [hsnapshot] at hs
    cases hs
    exact Senegal.sized_snapshot
  · exact (calculate_answers Senegal.book Senegal.overpaid
      { year := 2024, month := 3, day := 31 }).1 _
        (calculate_of_totalAllowances_fault (s := Senegal.snapshot)
          (by decide +kernel) Senegal.totalAllowances_overpaid)

/-- A request to be rejected for its salary is not rejected: the sum of
its allowances is beyond all amounts. -/
theorem calculate_fault_of_allowances :
    calculate Senegal.overpaid Senegal.book
        { year := 2024, month := 3, day := 31 }
      = .error (.crash (.fault .additionOverflow)) :=
  calculate_of_totalAllowances_fault (s := Senegal.snapshot)
    (by decide +kernel) Senegal.totalAllowances_overpaid

end Payroll
