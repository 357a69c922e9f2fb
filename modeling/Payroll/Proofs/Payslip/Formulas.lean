/-
The printed formulas, read back. An hour's or a day's pay stands in a
formula to four places, and the amount beside it was calculated with all
of them. So the formula does not replay the amount: it replays what the
amount would be at a rate that is off by a twenty-thousandth at most
(`Detail.Replays`). Rounding to the ledger hides that unless an edge of
the rounding lies between the two, and the more hours there are, the
wider the gap that an edge can lie in.

A rate of four places is printed as it is. Then the formula is exact,
and the amount is the formula rounded.

# Reading

A formula of this kind is a product: numbers between multiplication
signs, each perhaps with its unit behind it. `formulaValue?` takes it
apart again and does not know how it was put together, so what it reads
is what a reader of the payslip can know.
-/
import Payroll.Proofs.Overtime.Additive
import Payroll.Proofs.Payslip.Trace
import Payroll.Proofs.Text.Numerals

namespace Payroll

open Decimal

-- ================================================================ reading

/-- The number that a word is. -/
def wordValue? (word : List Char) : Option ℚ :=
  (ofText? (String.ofList word)).map toRat

/-- The words of a text. -/
def words (cs : List Char) : List (List Char) :=
  (cs.splitOn ' ').filter (! ·.isEmpty)

/-- A factor of a formula: a number, perhaps of hours or days. -/
def factorValue? (cs : List Char) : Option ℚ :=
  match words cs with
  | [number] => wordValue? number
  | [number, unit] =>
    if unit = ['h'] ∨ unit = ['d', 'a', 'y', 's'] then wordValue? number
    else none
  | _ => none

/-- What a printed product comes to. -/
def formulaValue? (formula : String) : Option ℚ :=
  ((formula.toList.splitOn '×').mapM factorValue?).map List.prod

section Words

variable {word cs : List Char}

theorem words_space : words (' ' :: cs) = words cs := by
  rw [words, ← List.nil_append (' ' :: cs), List.splitOn_append_cons_self]
  rfl

theorem words_append (hspace : ' ' ∉ word) (hne : word ≠ []) :
    words (word ++ ' ' :: cs) = word :: words cs := by
  rw [words, List.splitOn_append_cons_self_of_not_mem hspace,
    List.filter_cons_of_pos (by simpa using hne)]
  rfl

theorem words_self (hspace : ' ' ∉ word) (hne : word ≠ []) :
    words word = [word] := by
  rw [words, List.splitOn_eq_singleton hspace,
    List.filter_cons_of_pos (by simpa using hne)]
  rfl

end Words

/-- A product is read factor by factor. -/
theorem formulaValue_product {formula : String} {factors : List (List Char)}
    {values : List ℚ} (htext : formula.toList = ['×'].intercalate factors)
    (hne : factors ≠ []) (hmark : ∀ factor ∈ factors, '×' ∉ factor)
    (hvalues : factors.mapM factorValue? = some values) :
    formulaValue? formula = some values.prod := by
  rw [formulaValue?, htext, List.splitOn_intercalate _ hmark hne, hvalues,
    Option.map_some]

-- ================================================================ numbers

namespace Figures

/-- A number is read as its value. -/
theorem wordValue_brief (a : Decimal) :
    wordValue? (brief a).toList = some a.toRat := by
  unfold wordValue? brief
  rw [String.ofList_toList, ofText?_toText, Option.map_some, unsigned,
    toRat_signZero, toRat_normalize]

theorem brief_ne_nil (a : Decimal) : (brief a).toList ≠ [] := by
  intro hnil
  have hvalue := wordValue_brief a
  rw [hnil] at hvalue
  cases hvalue

theorem space_not_mem_brief (a : Decimal) : ' ' ∉ (brief a).toList :=
  not_mem_toText (by decide) (by decide) (by decide)

theorem times_not_mem_brief (a : Decimal) : '×' ∉ (brief a).toList :=
  not_mem_toText (by decide) (by decide) (by decide)

-- =============================================================== formulas

/-- The term of an absence, and its formula if the absence is not
paid. -/
theorem of_mem_absenceTerms {a : Adjustment} {t : Term}
    (h : t ∈ absenceTerms a) : t.ruleId = "absence_deduction"
      ∧ t.amount = a.absenceDeduction
      ∧ (a.paidAbsence = false → t.formula
        = s!"{brief a.absenceDays} days × {briefRate a.dailyRate}") := by
  unfold absenceTerms at h
  split at h
  · rw [List.mem_singleton.1 h]
    refine ⟨rfl, rfl, fun hpaid => ?_⟩
    simp only [hpaid, Bool.false_eq_true, if_false]
  · cases h

/-- A rate as it stands in a formula. -/
def printed (rate : ℚ) : ℚ := Tie.toEven.nearest (rate * 10 ^ 4) / 10 ^ 4

/-- Printing moves a rate by a twenty-thousandth at most. -/
theorem printed_near (rate : ℚ) : |printed rate - rate| ≤ 1 / 20000 := by
  have hmoved := abs_le.1 (Tie.toEven.abs_nearest_sub_le (rate * 10 ^ 4))
  rw [printed, abs_le]
  constructor <;> linarith

/-- A rate of four places is printed as it is. -/
theorem printed_of_whole {rate : ℚ} (h : Whole 4 rate) :
    printed rate = rate := by
  obtain ⟨k, hk⟩ := h
  rw [printed, hk, Tie.nearest_intCast, ← hk,
    mul_div_cancel_right₀ _ (pow_ten_pos' 4).ne']

section Factors

variable (a : Decimal)

/-- The first factor has a unit. -/
theorem factorValue_unit {unit : List Char}
    (h : unit = ['h'] ∨ unit = ['d', 'a', 'y', 's']) :
    factorValue? ((brief a).toList ++ ' ' :: (unit ++ [' ']))
      = some a.toRat := by
  have hunit : words (unit ++ [' ']) = [unit] := by
    rcases h with rfl | rfl <;> rfl
  rw [factorValue?, words_append (space_not_mem_brief a) (brief_ne_nil a),
    hunit]
  show (if _ then _ else _) = _
  rw [if_pos h, wordValue_brief]

/-- The last factor is a number by itself. -/
theorem factorValue_last :
    factorValue? (' ' :: (brief a).toList) = some a.toRat := by
  rw [factorValue?, words_space,
    words_self (space_not_mem_brief a) (brief_ne_nil a)]
  exact wordValue_brief a

/-- So is one in between. -/
theorem factorValue_middle :
    factorValue? (' ' :: ((brief a).toList ++ [' '])) = some a.toRat := by
  rw [factorValue?, words_space,
    words_append (space_not_mem_brief a) (brief_ne_nil a)]
  exact wordValue_brief a

end Factors

/-- The formula of overtime is read as the product of its numbers. -/
theorem formulaValue_overtime (l : OvertimeLine) :
    formulaValue? (overtimeTerm l).formula
      = some (l.paidHours.toRat * printed l.hourlyRate.toRat
        * l.multiplier.toRat) := by
  have htext : (overtimeTerm l).formula.toList = ['×'].intercalate [
      (brief l.paidHours).toList ++ ' ' :: (['h'] ++ [' ']),
      ' ' :: ((briefRate l.hourlyRate).toList ++ [' ']),
      ' ' :: (brief l.multiplier).toList] := by
    simp [overtimeTerm, toString]
  rw [formulaValue_product htext (by simp)
    (by simp [briefRate, times_not_mem_brief])
    (by
      simp only [List.mapM_cons, List.mapM_nil,
        factorValue_unit _ (.inl rfl), briefRate, factorValue_middle,
        factorValue_last]
      rfl)]
  simp [Decimal.toRat_round, printed, mul_assoc]

/-- So is the formula of an absence, if it is not paid. -/
theorem formulaValue_absence {a : Adjustment} {t : Term}
    (hpaid : a.paidAbsence = false) (ht : t ∈ absenceTerms a) :
    formulaValue? t.formula
      = some (a.absenceDays.toRat * printed a.dailyRate.toRat) := by
  have htext : t.formula.toList = ['×'].intercalate [
      (brief a.absenceDays).toList
        ++ ' ' :: (['d', 'a', 'y', 's'] ++ [' ']),
      ' ' :: (briefRate a.dailyRate).toList] := by
    rw [(of_mem_absenceTerms ht).2.2 hpaid]
    simp [toString]
  rw [formulaValue_product htext (by simp)
    (by simp [briefRate, times_not_mem_brief])
    (by
      simp only [List.mapM_cons, List.mapM_nil,
        factorValue_unit _ (.inr rfl), briefRate, factorValue_last]
      rfl)]
  simp [Decimal.toRat_round, printed]

end Figures

-- =============================================================== replays

namespace Detail

open Figures

/-- What so many units cost at a rate, times a factor, as a calculation
forms it. -/
def charge (units rate factor : ℚ) : ℚ :=
  nearest (nearest (units * rate) * factor)

section Charge

variable {units rate factor : ℚ} (hunits : 0 ≤ units)

include hunits

theorem charge_mono {rate' : ℚ} (hfactor : 0 ≤ factor)
    (h : rate ≤ rate') :
    charge units rate factor ≤ charge units rate' factor :=
  nearest_mono (mul_le_mul_of_nonneg_right
    (nearest_mono (mul_le_mul_of_nonneg_left h hunits)) hfactor)

/-- Where nothing has more than four places, a charge is exact: its
twelve places have room. -/
theorem charge_of_whole (hrate : 0 ≤ rate) (hfactor : 1 ≤ factor)
    (hu : Whole 4 units) (hr : Whole 4 rate) (hf : Whole 4 factor)
    (hle : units * rate * factor ≤ 10 ^ 16) :
    charge units rate factor = units * rate * factor := by
  have hbase : 0 ≤ units * rate := mul_nonneg hunits hrate
  have hsmall : units * rate ≤ units * rate * factor :=
    le_mul_of_one_le_right hbase hfactor
  have hfirst : nearest (units * rate) = units * rate := by
    refine (hu.mul hr).nearest_eq (by decide) ?_
    rw [abs_of_nonneg hbase]
    calc units * rate * 10 ^ (4 + 4)
        ≤ 10 ^ 16 * 10 ^ (4 + 4) := by gcongr; exact hsmall.trans hle
      _ ≤ 10 ^ 28 := by norm_num
  rw [charge, hfirst]
  refine ((hu.mul hr).mul hf).nearest_eq (by decide) ?_
  rw [abs_of_nonneg (hbase.trans hsmall)]
  calc units * rate * factor * 10 ^ (4 + 4 + 4)
      ≤ 10 ^ 16 * 10 ^ (4 + 4 + 4) := by gcongr
    _ ≤ 10 ^ 28 := by norm_num

end Charge

/-- A detail that charges units at a rate, as far as its formula tells.
The formula shows the rate to four places, and the amount lies between
the charges at the least and the greatest rate that is shown so. If
there was nothing to cut off, the amount is the formula rounded. -/
structure Replays (rounding : Rounding) (units rate factor : ℚ)
    (d : Detail) : Prop where
  formula : formulaValue? d.formula = some (units * printed rate * factor)
  amount : d.amount.toRat = rounding.value (charge units rate factor)
  shown : |printed rate - rate| ≤ 1 / 20000
  lower : rounding.value (charge units (printed rate - 1 / 20000) factor)
    ≤ d.amount.toRat
  upper : d.amount.toRat
    ≤ rounding.value (charge units (printed rate + 1 / 20000) factor)
  exact : ∀ v, formulaValue? d.formula = some v → Whole 4 units →
    Whole 4 rate → Whole 4 factor → v ≤ 10 ^ 16 →
    d.amount.toRat = rounding.value v

theorem replays_of_charge {rounding : Rounding} {units rate factor : ℚ}
    {d : Detail} (hunits : 0 ≤ units) (hrate : 0 ≤ rate)
    (hfactor : 1 ≤ factor)
    (hformula : formulaValue? d.formula
      = some (units * printed rate * factor))
    (hamount : d.amount.toRat
      = rounding.value (charge units rate factor)) :
    d.Replays rounding units rate factor where
  formula := hformula
  amount := hamount
  shown := printed_near rate
  lower := by
    rw [hamount]
    have hnear := (abs_le.1 (printed_near rate)).2
    exact rounding.value_mono
      (charge_mono hunits (by linarith) (by linarith))
  upper := by
    rw [hamount]
    have hnear := (abs_le.1 (printed_near rate)).1
    exact rounding.value_mono
      (charge_mono hunits (by linarith) (by linarith))
  exact := by
    intro v hv hu hr hf hle
    rw [hformula, printed_of_whole hr] at hv
    cases hv
    rw [hamount, charge_of_whole hunits hrate hfactor hu hr hf hle]

end Detail

-- ================================================================= terms

namespace Figures

variable {f : Figures} {t : Term}

/-- A term is one of overtime, one of absence or neither by its rule. -/
theorem mem_terms (h : t ∈ f.terms) :
    (∃ l ∈ f.overtime.lines, overtimeTerm l = t)
      ∨ t ∈ absenceTerms f.adjustment
      ∨ Family.overtime.holds t.ruleId = false
        ∧ t.ruleId ≠ "absence_deduction" := by
  have hplain (id : String) (hid : id ∈ plainRules)
      (hne : id ≠ "absence_deduction") :
      Family.overtime.holds id = false ∧ id ≠ "absence_deduction" :=
    ⟨not_holds_of_plain id hid .overtime, hne⟩
  have hfamily {k : Family} (name : String) (hk : Family.overtime ≠ k) :
      Family.overtime.holds (k.ruleId name) = false
        ∧ k.ruleId name ≠ "absence_deduction" :=
    ⟨by simpa using hk,
      fun heq => ruleId_not_plain k name (heq ▸ by decide)⟩
  simp only [terms, List.mem_append, List.mem_map, List.mem_cons,
    List.not_mem_nil, or_false, or_assoc] at h
  rcases h with rfl | ⟨e, -, rfl⟩ | hovertime | rfl | ⟨l, -, rfl⟩ | rfl
    | rfl | ⟨e, -, rfl⟩ | hdelay | habsence | rfl | rfl
  · exact .inr (.inr (hplain "base_salary" (by decide) (by decide)))
  · exact .inr (.inr (hfamily (k := .allowance) e.1 (by decide)))
  · exact .inl hovertime
  · exact .inr (.inr (hplain "gross_salary" (by decide) (by decide)))
  · exact .inr (.inr (hfamily (k := .contribution) l.scheme (by decide)))
  · exact .inr (.inr (hplain "taxable_income" (by decide) (by decide)))
  · exact .inr (.inr (hplain "income_tax" (by decide) (by decide)))
  · exact .inr (.inr (hfamily (k := .deduction) e.1 (by decide)))
  · unfold delayTerms at hdelay
    split at hdelay
    · cases hdelay
    · rw [List.mem_singleton.1 hdelay]
      exact .inr (.inr (hplain "delay_penalty" (by decide) (by decide)))
  · exact .inr (.inl habsence)
  · exact .inr (.inr (hplain "total_deductions" (by decide) (by decide)))
  · exact .inr (.inr (hplain "net_salary" (by decide) (by decide)))

theorem mem_terms_of_mem_lines {l : OvertimeLine}
    (h : l ∈ f.overtime.lines) : overtimeTerm l ∈ f.terms := by
  simp only [terms, List.mem_append]
  exact .inl (.inl (.inl (.inl (.inl (.inl (.inl (.inr
    (List.mem_map_of_mem h))))))))

theorem mem_terms_of_mem_absenceTerms (h : t ∈ absenceTerms f.adjustment) :
    t ∈ f.terms := by
  simp only [terms, List.mem_append]
  exact .inl (.inr h)

/-- A detail repeats a term. -/
theorem mem_number {terms : List Term} {d : Detail}
    (h : d ∈ Term.number terms) : ∃ t ∈ terms, t.ruleId = d.ruleId
      ∧ t.formula = d.formula ∧ t.amount = d.amount := by
  obtain ⟨⟨t, n⟩, ht, rfl⟩ := List.mem_map.1 h
  exact ⟨t, List.fst_mem_of_mem_zipIdx ht, rfl, rfl, rfl⟩

/-- And every term is repeated. -/
theorem exists_detail {terms : List Term} (h : t ∈ terms) :
    ∃ d ∈ Term.number terms, d.ruleId = t.ruleId := by
  have hmem : (t.ruleId, t.amount)
      ∈ (Term.number terms).map fun d => (d.ruleId, d.amount) := by
    rw [map_number]
    exact List.mem_map_of_mem h
  obtain ⟨d, hd, heq⟩ := List.mem_map.1 hmem
  injection heq with hid
  exact ⟨d, hd, hid⟩

/-- The overtime of a trace is that of its lines. -/
theorem overtime_of_mem_terms (h : t ∈ f.terms)
    (hid : Family.overtime.holds t.ruleId = true) :
    ∃ l ∈ f.overtime.lines, overtimeTerm l = t := by
  rcases mem_terms h with hline | habsence | ⟨hno, -⟩
  · exact hline
  · rw [(of_mem_absenceTerms habsence).1,
      not_holds_of_plain _ (by decide)] at hid
    cases hid
  · rw [hno] at hid
    cases hid

/-- So is the absence. -/
theorem absence_of_mem_terms (h : t ∈ f.terms)
    (hid : t.ruleId = "absence_deduction") :
    t ∈ absenceTerms f.adjustment := by
  rcases mem_terms h with ⟨l, -, rfl⟩ | habsence | ⟨-, hno⟩
  · change Family.overtime.ruleId l.category.name = _ at hid
    exact absurd (hid.symm ▸ by decide)
      (ruleId_not_plain .overtime l.category.name)
  · exact habsence
  · exact absurd hid hno

end Figures

-- ============================================================= settlements

namespace Settlement

variable {r : Request} {s : Snapshot} {rounding : Rounding}
  {st : Stages r s rounding} (t : Settlement st) {d : Detail}

/-- Hours have a detail. -/
theorem exists_overtime_detail {c : Category}
    (hpos : .zero < Overtime.hoursIn r.overtimeHours c) :
    ∃ d ∈ t.payslip.details, d.ruleId = Family.overtime.ruleId c.name := by
  rw [lt_iff_toRat, toRat_zero] at hpos
  obtain ⟨l, hl, rfl⟩ :=
    Overtime.exists_mem_of_pos st.exactOvertime_ok hpos
  have hrounded : { l with amount := rounding.round l.amount }
      ∈ st.overtime.lines := by
    rw [(Overtime.rounded_eq_ok_iff.1 st.overtime_ok).lines]
    exact List.mem_map_of_mem hl
  have hterm := Figures.mem_terms_of_mem_lines (f := t.figures) hrounded
  exact Figures.exists_detail hterm

/-- So do days of absence. -/
theorem exists_absence_detail (hpos : .zero < r.attendance.absenceDays) :
    ∃ d ∈ t.payslip.details, d.ruleId = "absence_deduction" := by
  have hdays : .zero < st.adjustment.absenceDays := by
    show .zero < st.exactAdjustment.absenceDays
    rwa [(Adjustment.computed st.adjustment_ok).absenceDays]
  obtain ⟨term, hterm⟩ :
      ∃ term, term ∈ Figures.absenceTerms st.adjustment := by
    unfold Figures.absenceTerms
    rw [if_pos hdays]
    exact ⟨_, List.mem_singleton_self _⟩
  obtain ⟨d, hd, hid⟩ := Figures.exists_detail
    (Figures.mem_terms_of_mem_absenceTerms (f := t.figures) hterm)
  exact ⟨d, hd, hid.trans (Figures.of_mem_absenceTerms hterm).1⟩

/-- Details of overtime charge the hours that are paid. -/
theorem overtime_replays (hs : s.WellFormed) (hd : d ∈ t.payslip.details)
    (hid : Family.overtime.holds d.ruleId = true) :
    ∃ rule ∈ s.overtime,
      d.ruleId = Family.overtime.ruleId rule.category.name
        ∧ d.Replays rounding (rule.paid
            (Overtime.hoursIn r.overtimeHours rule.category).toRat)
          st.hourlyRate.toRat rule.multiplier.toRat := by
  obtain ⟨term, hterm, hruleId, hformula, hamount⟩ :=
    Figures.mem_number hd
  rw [← hruleId] at hid
  obtain ⟨l, hl, rfl⟩ := Figures.overtime_of_mem_terms hterm hid
  change l ∈ st.overtime.lines at hl
  rw [(Overtime.rounded_eq_ok_iff.1 st.overtime_ok).lines] at hl
  obtain ⟨exact, hexact, rfl⟩ := List.mem_map.1 hl
  obtain ⟨rule, hmem, hpos, hline⟩ :=
    Overtime.exists_rule_of_mem hs.overtime st.exactOvertime_ok hexact
  have hrule := hs.overtime.acceptable rule hmem
  have hrate := (Overtime.compute_eq_ok st.exactOvertime_ok).1
  have hprice := OvertimeRule.toRat_amount hline
  obtain ⟨base, amount, -, -, rfl⟩ := OvertimeRule.lineFor_eq_ok.1 hline
  refine ⟨rule, hmem, hruleId.symm, Detail.replays_of_charge
    (hrule.proper.paid_nonneg hpos.le) hrate hrule.one_lt_multiplier.le
    ?_ ?_⟩
  · rw [← hformula, Figures.formulaValue_overtime,
      OvertimeRule.toRat_paidHours]
  · rw [← hamount]
    show (rounding.round amount).toRat = _
    rw [rounding.toRat_round, hprice]
    rfl

/-- The detail of an unpaid absence charges its days. -/
theorem absence_replays (hpaid : r.attendance.paidAbsence = false)
    (hd : d ∈ t.payslip.details) (hid : d.ruleId = "absence_deduction") :
    d.Replays rounding r.attendance.absenceDays.toRat st.dailyRate.toRat
      1 := by
  obtain ⟨term, hterm, hruleId, hformula, hamount⟩ :=
    Figures.mem_number hd
  rw [← hruleId] at hid
  have habsence : term ∈ Figures.absenceTerms st.adjustment :=
    Figures.absence_of_mem_terms hterm hid
  have hx := Adjustment.computed st.adjustment_ok
  have hdeduction := hx.deduction_ok
  rw [Adjustment.deduction, if_neg (by rw [hpaid]; decide)] at hdeduction
  refine Detail.replays_of_charge hx.days_nonneg hx.rate_nonneg le_rfl
    ?_ ?_
  · have hunpaid : st.adjustment.paidAbsence = false :=
      hx.paidAbsence.trans hpaid
    rw [← hformula, Figures.formulaValue_absence hunpaid habsence, mul_one]
    show some (st.exactAdjustment.absenceDays.toRat
      * Figures.printed st.exactAdjustment.dailyRate.toRat) = _
    rw [hx.absenceDays, hx.dailyRate]
  · rw [← hamount, (Figures.of_mem_absenceTerms habsence).2.1]
    show (rounding.round st.exactAdjustment.absenceDeduction).toRat = _
    rw [rounding.toRat_round, Detail.charge, mul_one,
      ← toRat_mul hdeduction, nearest_toRat]

end Settlement

-- ======================================================= the calculation

/-- A payslip that has a formula for all overtime and for absence, and
whose formulas of overtime and of unpaid absence tell what they
charge. -/
structure Payslip.Replays (p : Payslip) (r : Request) (s : Snapshot)
    (rounding : Rounding) (hourlyRate dailyRate : ℚ) : Prop where
  overtime_mem : ∀ c, .zero < Overtime.hoursIn r.overtimeHours c →
    ∃ d ∈ p.details, d.ruleId = Family.overtime.ruleId c.name
  absence_mem : .zero < r.attendance.absenceDays →
    ∃ d ∈ p.details, d.ruleId = "absence_deduction"
  overtime : ∀ d ∈ p.details, Family.overtime.holds d.ruleId = true →
    ∃ rule ∈ s.overtime,
      d.ruleId = Family.overtime.ruleId rule.category.name
        ∧ d.Replays rounding (rule.paid
            (Overtime.hoursIn r.overtimeHours rule.category).toRat)
          hourlyRate rule.multiplier.toRat
  absence : r.attendance.paidAbsence = false → ∀ d ∈ p.details,
    d.ruleId = "absence_deduction" →
    d.Replays rounding r.attendance.absenceDays.toRat dailyRate 1

/-- The formulas of a payslip tell what its amounts are, as far as four
places of the rates do. -/
theorem formulas_replay_four_places (book : RuleBook) (r : Request)
    (asOf : Date) {p : Payslip} (h : calculate r book asOf = .ok p) :
    ∃ s hourlyRate dailyRate, book.snapshotFor r.period = .ok s
      ∧ s.hourlyRate r.baseSalary = .ok hourlyRate
      ∧ s.dailyRate r.baseSalary = .ok dailyRate
      ∧ p.Replays r s book.rounding hourlyRate.toRat dailyRate.toRat := by
  unfold calculate at h
  split at h
  · cases h
  · rename_i s hs
    have hwell := Snapshot.check_eq_ok.1
      (book.checked s (RuleBook.snapshotFor_eq_ok hs).mem)
    obtain ⟨_, -, -, st, t, rfl⟩ := (calculateWith_eq_ok hwell.proper).1 h
    exact ⟨s, st.hourlyRate, st.dailyRate, hs, st.hourlyRate_ok,
      st.dailyRate_ok, fun c => t.exists_overtime_detail,
      t.exists_absence_detail, fun d => t.overtime_replays hwell,
      fun hpaid d => t.absence_replays hpaid⟩

namespace Senegal

/-- An employee with four hours of overtime who missed half of the
month. -/
def janitor : Request :=
  { employeeId := "E-1"
    period := .of 2024 3
    baseSalary := 76171
    regularHours := 160
    overtimeHours := { regular := some 4 }
    attendance := { absenceDays := 13 } }

/-- The janitor's formulas tell what the janitor is paid. -/
theorem formulas_replay_four_places_janitor : ∃ p s hourlyRate dailyRate,
    calculate janitor book { year := 2024, month := 3, day := 31 } = .ok p
      ∧ (p.details.any fun d => Family.overtime.holds d.ruleId) = true
      ∧ janitor.attendance.paidAbsence = false
      ∧ (p.detail? "absence_deduction").isSome = true
      ∧ book.snapshotFor janitor.period = .ok s
      ∧ p.Replays janitor s book.rounding hourlyRate dailyRate := by
  have hany : (calculate janitor book
      { year := 2024, month := 3, day := 31 }).toOption.any (fun p =>
        (p.details.any fun d => Family.overtime.holds d.ruleId)
          && (p.detail? "absence_deduction").isSome) = true := by
    decide +kernel
  obtain ⟨p, hp, hdetails⟩ := exists_ok_of_any hany
  obtain ⟨hovertime, habsence⟩ := Bool.and_eq_true_iff.1 hdetails
  obtain ⟨s, hourlyRate, dailyRate, hs, -, -, hreplays⟩ :=
    formulas_replay_four_places book janitor _ hp
  exact ⟨p, s, hourlyRate.toRat, dailyRate.toRat, hp, hovertime, rfl,
    habsence, hs, hreplays⟩

/-- Whether a formula is read as another amount than the one beside
it. -/
def astray (d : Detail) : Bool :=
  (formulaValue? d.formula).any fun v =>
    decide (book.rounding.value v ≠ d.amount.toRat)

theorem astray_iff {d : Detail} : astray d = true ↔
    ∃ v, formulaValue? d.formula = some v
      ∧ book.rounding.value v ≠ d.amount.toRat := by
  rw [astray, Option.any_eq_true]
  simp only [decide_eq_true_iff]

/-- But four hours at 439.4565 and 1.15 come to 2021.4999, and 2022 is
paid for them; thirteen days at 2929.6538 come to 38085.4994, and 38086
is deducted. -/
theorem formulas_astray : ∃ p,
    calculate janitor book { year := 2024, month := 3, day := 31 } = .ok p
      ∧ (∃ d ∈ p.details, Family.overtime.holds d.ruleId = true
        ∧ ∃ v, formulaValue? d.formula = some v
          ∧ book.rounding.value v ≠ d.amount.toRat)
      ∧ janitor.attendance.paidAbsence = false
      ∧ ∃ d ∈ p.details, d.ruleId = "absence_deduction"
        ∧ ∃ v, formulaValue? d.formula = some v
          ∧ book.rounding.value v ≠ d.amount.toRat := by
  have hany : (calculate janitor book
      { year := 2024, month := 3, day := 31 }).toOption.any (fun p =>
        (p.details.any fun d =>
          Family.overtime.holds d.ruleId && astray d)
        && p.details.any fun d =>
          d.ruleId == "absence_deduction" && astray d) = true := by
    decide +kernel
  obtain ⟨p, hp, hboth⟩ := exists_ok_of_any hany
  simp only [Bool.and_eq_true, List.any_eq_true, beq_iff_eq, astray_iff]
    at hboth
  exact ⟨p, hp, hboth.1, rfl, hboth.2⟩

end Senegal

end Payroll
