/-
Periods tile the calendar. Each period holds the days of one month, from
the first to the last, and the first day of the next one follows with
nothing in between; so a date lies in exactly one period, the one that
it is said to fall in, and periods come in the order of their first
days. A period lies in the future of a day exactly if it starts after
that day, which is what validation reports.

# Where the calendar ends

The last day of a period is the day before the next one starts. The last
month of the calendar has no next one and counts its first day only, so
what is said of dates and lengths excepts it (`last`). Orders need no
exception.

# The argument

Months are numbered like days are: `index` counts them, and the next
month has the next number, across years too. The step from a first day
to the next first day is the length of the month, by `daysBefore_succ`
within a year and by `daysBefore_next_january` between two. So the day
numbered one below the next first day is the last of the month's own
days, and the calendar has nothing between.
-/
import Payroll.Proofs.Calendar.Number
import Payroll.Proofs.Validation.Breaches

namespace Payroll

namespace Period

variable {p q : Period} {d : Date}

-- ================================================================= months

/-- The last month of the calendar. -/
def last : Period := .of Date.maxYear 12

theorem eq_last_iff : p = last ↔ p.year = Date.maxYear ∧ p.month = 12 := by
  rw [Period.ext_iff]
  exact Iff.rfl

/-- The months from the year 0 on that come before a period. -/
def index (p : Period) : ℤ := 12 * p.year + (p.month - 1)

theorem lt_iff_index (p q : Period) : p < q ↔ p.index < q.index := by
  have := p.month_ge
  have := p.month_le
  have := q.month_ge
  have := q.month_le
  show p.year < q.year ∨ p.year = q.year ∧ p.month < q.month ↔ _
  unfold index
  omega

/-- The period one month later, if the calendar has it. -/
def next? (p : Period) : Option Period :=
  of? ((p.index + 1) / 12) (((p.index + 1) % 12).toNat + 1)

theorem index_of_next? (h : p.next? = some q) :
    q.index = p.index + 1 := by
  obtain ⟨hyear, hmonth⟩ := of?_eq_some_iff.1 h
  have hrange : 0 ≤ (p.index + 1) % 12 := Int.emod_nonneg _ (by decide)
  have hvalue := Int.mul_ediv_add_emod (p.index + 1) 12
  unfold index at hvalue hrange ⊢
  rw [hyear, hmonth]
  unfold index
  omega

/-- Only the last month has no next one. -/
theorem exists_next? (h : p ≠ last) : ∃ q, p.next? = some q := by
  rw [ne_eq, eq_last_iff] at h
  have hfirst := p.year_ge
  have hyear := p.year_le
  have hmonth := p.month_ge
  have hmonth' := p.month_le
  refine ⟨⟨(p.index + 1) / 12, ((p.index + 1) % 12).toNat + 1, ?_, ?_, ?_,
    ?_⟩, of?_eq_some_iff.2 ⟨rfl, rfl⟩⟩
  all_goals
    unfold index
    omega

theorem next?_last : last.next? = none := by
  decide

/-- The next period is within a year, or starts one. -/
theorem next_cases (h : q.index = p.index + 1) :
    p.month < 12 ∧ q.year = p.year ∧ q.month = p.month + 1
      ∨ p.month = 12 ∧ q.year = p.year + 1 ∧ q.month = 1 := by
  have := p.month_ge
  have := p.month_le
  have := q.month_ge
  have := q.month_le
  unfold index at h
  omega

-- =================================================================== days

theorem lastDay_eq_dayOf (h : p ≠ last) :
    p.lastDay = p.dayOf (Date.daysInMonth p.year p.month)
      (Date.one_le_daysInMonth _ _) (Nat.le_refl _) :=
  if_neg (mt eq_last_iff.2 h)

/-- A period has the days of its month. -/
theorem days_eq (h : p ≠ last) :
    p.days = Date.daysInMonth p.year p.month := by
  rw [days, lastDay_eq_dayOf h]
  rfl

/-- The days of a period are those from its first day to its last. -/
theorem days_eq_number (h : p ≠ last) :
    (p.days : ℤ) = p.lastDay.number - p.firstDay.number + 1 := by
  have hfirst : p.firstDay.number = Date.daysBefore p.year p.month + 1 :=
    rfl
  have hlast : p.lastDay.number = Date.daysBefore p.year p.month
      + Date.daysInMonth p.year p.month := by
    rw [lastDay_eq_dayOf h]
    rfl
  rw [days_eq h, hfirst, hlast]
  omega

/-- The next period starts after as many days as the month has. -/
theorem number_firstDay_next (h : q.index = p.index + 1) :
    q.firstDay.number = p.firstDay.number
      + Date.daysInMonth p.year p.month := by
  have hstep : Date.daysBefore q.year q.month
      = Date.daysBefore p.year p.month
        + Date.daysInMonth p.year p.month := by
    rcases next_cases h with ⟨hlt, hyear, hmonth⟩ | ⟨hlast, hyear, hmonth⟩
    · rw [hyear, hmonth]
      exact Date.daysBefore_succ p.year p.month_ge hlt
    · rw [hyear, hmonth, hlast]
      exact Date.daysBefore_next_january p.year
  show Date.daysBefore q.year q.month + 1
    = Date.daysBefore p.year p.month + 1 + _
  rw [hstep]
  omega

theorem number_lastDay_next (hp : p ≠ last)
    (h : q.index = p.index + 1) :
    p.lastDay.number + 1 = q.firstDay.number := by
  have hdays := days_eq_number hp
  rw [days_eq hp] at hdays
  rw [number_firstDay_next h]
  omega

/-- The next period starts on the day after the last. -/
theorem lastDay_covBy (hp : p ≠ last) (h : q.index = p.index + 1) :
    p.lastDay ⋖ q.firstDay :=
  covBy_of_number Date.lt_iff_number (number_lastDay_next hp h)

/-- The last day is found by a step of one month and a step of one day
back, and is the first day where the calendar has no such month. -/
theorem lastDay_eq_before (p : Period) : p.lastDay
    = (p.next?.bind fun q => q.firstDay.before?).getD p.firstDay := by
  by_cases hp : p = last
  · rw [hp, next?_last]
    exact if_pos ⟨rfl, rfl⟩
  · obtain ⟨q, hq⟩ := exists_next? hp
    have hstep := lastDay_covBy hp (index_of_next? hq)
    rw [hq, Option.bind_some, Date.before?_eq_some_iff.2 hstep,
      Option.getD_some]

-- ================================================================== dates

theorem firstDay_lt_iff {p q : Period} :
    p.firstDay < q.firstDay ↔ p < q := by
  show p.year < q.year ∨ p.year = q.year
      ∧ (p.month < q.month ∨ p.month = q.month ∧ 1 < 1)
    ↔ p.year < q.year ∨ p.year = q.year ∧ p.month < q.month
  omega

/-- A period starts after a date if it is later than the date's own. -/
theorem lt_firstDay_iff : d < p.firstDay ↔ containing d < p := by
  have hday := d.day_ge
  show d.year < p.year ∨ d.year = p.year
      ∧ (d.month < p.month ∨ d.month = p.month ∧ d.day < 1)
    ↔ d.year < p.year ∨ d.year = p.year ∧ d.month < p.month
  omega

/-- The days of a period are the dates of its month. -/
theorem mem_days_iff (hd : containing d ≠ last) :
    p.firstDay ≤ d ∧ d ≤ p.lastDay ↔ p = containing d := by
  have hday := d.day_ge
  constructor
  · rintro ⟨hfirst, hlast⟩
    -- both ends are of one month, so the date has no other
    have hsame : p.lastDay.year = p.year ∧ p.lastDay.month = p.month := by
      unfold lastDay
      split <;> exact ⟨rfl, rfl⟩
    rw [Date.le_iff] at hfirst hlast
    rw [hsame.1, hsame.2] at hlast
    rw [Period.ext_iff]
    show p.year = d.year ∧ p.month = d.month
    change p.year < d.year ∨ p.year = d.year
      ∧ (p.month < d.month ∨ p.month = d.month ∧ 1 ≤ d.day) at hfirst
    omega
  · rintro rfl
    rw [lastDay_eq_dayOf hd]
    exact ⟨Date.le_iff.2 (.inr ⟨rfl, .inr ⟨rfl, d.day_ge⟩⟩),
      Date.le_iff.2 (.inr ⟨rfl, .inr ⟨rfl, d.day_le⟩⟩)⟩

end Period

-- ================================================================= future

section Future

variable {r : Request} {s : Snapshot} {asOf : Date}
  {fixedPay explicit : Decimal}

/-- The errors of broken rules have the codes of these rules. -/
theorem mem_codes_breaches {code : String} {rules : List Rule} :
    code ∈ (breaches rules).map (·.1)
      ↔ ∃ u ∈ rules.filter (·.code == code), u.broken = true := by
  simp only [breaches, List.map_map, List.mem_map, List.mem_filter,
    Function.comp_apply, beq_iff_eq]
  constructor
  · rintro ⟨u, ⟨hu, hbroken⟩, hcode⟩
    exact ⟨u, ⟨hu, hcode⟩, hbroken⟩
  · rintro ⟨u, ⟨hu, hcode⟩, hbroken⟩
    exact ⟨u, ⟨hu, hbroken⟩, hcode⟩

/-- Of the rules for a request one is about the future. -/
theorem filter_rules_future :
    (r.rules s asOf fixedPay explicit).filter
      (·.code == "PERIOD_IN_FUTURE") = Rule.period r asOf := by
  have hnone {α : Type} (l : List α) :
      l.flatMap (fun _ => ([] : List Rule)) = [] :=
    List.flatMap_eq_nil_iff.2 fun _ _ => rfl
  simp [Request.rules, Rule.employee, Rule.salary, Rule.regularHours,
    Rule.category, Rule.overtime, Rule.amount, Rule.deductions, Rule.period,
    Rule.delay, Rule.absence, List.filter_append, List.filter_flatMap,
    hnone]

/-- The bounds say nothing about the period. -/
theorem Late.future_not_mem {keys : List (String × String)}
    (h : Late r s keys) : "PERIOD_IN_FUTURE" ∉ keys.map (·.1) := by
  cases h with
  | unbounded => exact List.not_mem_nil
  | covered => exact List.not_mem_nil
  | deductions => exact (by decide)
  | net => exact (by decide)

/-- A period is reported to lie in the future if it starts after the
day of the report. -/
theorem reports_future_iff {report : Report}
    (h : validate r s asOf = .ok report) :
    (∃ i ∈ report.errors, i.code = "PERIOD_IN_FUTURE")
      ↔ asOf < r.period.firstDay := by
  obtain ⟨-, found, hfound, hbroken, hkept⟩ := report_of_validate h
  obtain ⟨-, fixedPay, explicit, -, -, -, hkeys⟩ :=
    Validation.errorKeys_examine hfound
  rw [hkeys] at hbroken hkept
  have hcodes : (∃ i ∈ report.errors, i.code = "PERIOD_IN_FUTURE")
      ↔ "PERIOD_IN_FUTURE" ∈ report.keys.map (·.1) := by
    rw [Report.keys, List.map_map, List.mem_map]
    rfl
  have hrule : "PERIOD_IN_FUTURE"
      ∈ (breaches (r.rules s asOf fixedPay explicit)).map (·.1)
      ↔ asOf < r.period.firstDay := by
    rw [mem_codes_breaches, filter_rules_future, Period.lt_firstDay_iff]
    simp only [Rule.period, List.mem_singleton, exists_eq_left,
      decide_eq_true_eq]
    exact Iff.rfl
  rw [hcodes]
  -- the bounds are looked at only where no rule is broken
  by_cases hnone : breaches (r.rules s asOf fixedPay explicit) = []
  · rw [hnone] at hrule
    exact iff_of_false (hkept hnone).future_not_mem
      (mt hrule.2 List.not_mem_nil)
  · rw [hbroken hnone, hrule]

end Future

-- ================================================================= tiling

namespace Period

/-- Every date outside the last month of the calendar lies in one
period, the one that contains it. Every period but the last is as long
as its month, counted in days too, and the next one starts on the day
after it ends. Periods are ordered by their first days, and one is in
the future of a date, and reported to be, if it starts after it. -/
theorem periods_tile :
    (∀ d, containing d ≠ last → ∀ p : Period,
      p.firstDay ≤ d ∧ d ≤ p.lastDay ↔ p = containing d)
    ∧ (∀ p : Period, p ≠ last →
      (Date.monthLengths p.year)[p.month - 1]? = some p.days
      ∧ (p.days : ℤ) = p.lastDay.number - p.firstDay.number + 1
      ∧ ∃ q, p.next? = some q ∧ p ⋖ q ∧ p.lastDay ⋖ q.firstDay)
    ∧ (∀ p : Period, p.lastDay
      = (p.next?.bind fun q => q.firstDay.before?).getD p.firstDay)
    ∧ (∀ c d : Date, c ⋖ d → c.number + 1 = d.number)
    ∧ (∀ p q : Period, p < q ↔ p.firstDay < q.firstDay)
    ∧ (∀ (p : Period) (d : Date), containing d < p ↔ d < p.firstDay)
    ∧ ∀ (r : Request) (s : Snapshot) (asOf : Date) (report : Report),
      validate r s asOf = .ok report →
        ((∃ i ∈ report.errors, i.code = "PERIOD_IN_FUTURE")
          ↔ asOf < r.period.firstDay) := by
  refine ⟨fun d hd p => mem_days_iff hd, fun p hp => ⟨?_,
    days_eq_number hp, ?_⟩, lastDay_eq_before,
    fun c d => Date.number_of_covBy, fun p q => firstDay_lt_iff.symm,
    fun p d => lt_firstDay_iff.symm, fun r s asOf report =>
      reports_future_iff⟩
  · rw [days_eq hp]
    exact Date.getElem?_monthLengths p.year p.month_ge p.month_le
  · obtain ⟨q, hq⟩ := exists_next? hp
    have hindex := index_of_next? hq
    exact ⟨q, hq, covBy_of_number lt_iff_index hindex.symm,
      lastDay_covBy hp hindex⟩

/-- A leap day, the turn of the year before the year 0, which is a leap
year too, and a request for a year to come. -/
theorem periods_tile_leap_days :
    containing { year := 2024, month := 2, day := 29 } ≠ last
      ∧ (Period.of 2024 2).firstDay ≤ { year := 2024, month := 2, day := 29 }
      ∧ Period.of (-1) 12 ≠ last
      ∧ (Period.of (-1) 12).lastDay ⋖ (Period.of 0 1).firstDay
      ∧ Period.of 0 2 ≠ last
      ∧ (29 : ℤ) = (Period.of 0 2).lastDay.number
        - (Period.of 0 2).firstDay.number + 1
      ∧ ∃ report, validate Senegal.muddled Senegal.snapshot
          { year := 2024, month := 2, day := 29 } = .ok report
        ∧ ∃ i ∈ report.errors, i.code = "PERIOD_IN_FUTURE" := by
  obtain ⟨hdates, hperiods, -, -, -, -, hreports⟩ := periods_tile
  have hleap : containing { year := 2024, month := 2, day := 29 } ≠ last := by
    decide
  have hdecember : Period.of (-1) 12 ≠ last := by decide
  have hfebruary : Period.of 0 2 ≠ last := by decide
  obtain ⟨-, -, q, hq, -, hturn⟩ := hperiods _ hdecember
  have hjanuary : (Period.of (-1) 12).next? = some (.of 0 1) := by decide
  rw [hjanuary, Option.some_inj] at hq
  have hreport : (validate Senegal.muddled Senegal.snapshot
      { year := 2024, month := 2, day := 29 }).toOption.any
        (fun _ => true) = true := by
    decide +kernel
  obtain ⟨report, hreport, -⟩ := exists_ok_of_any hreport
  exact ⟨hleap, ((hdates _ hleap (.of 2024 2)).2 (by decide)).1, hdecember,
    hq ▸ hturn, hfebruary, (hperiods _ hfebruary).2.1, report, hreport,
    (hreports _ _ _ _ hreport).2 (by decide)⟩

end Period

end Payroll
