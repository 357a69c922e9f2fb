/-
Days counted. The calendar knows which days exist and in which order
they come; how many days lie between two of them it does not say. Here
every date gets a number, by counting whole years and then the days of
the year, and the numbers of the calendar are these: 1 January of the
year 1 is day 1, and each day is numbered one higher than the day before
it.

# Two counts

`number` looks at no length of a month. It counts a year as if every
month took an equal share of 367 days and takes off what February lacks.
The calendar for its part has a length for each month and knows nothing
of the days of a year. That both agree is the content of
`daysBefore_succ` and `daysBefore_next_january`: a month is as long as
its share, and December closes the year.

The rest is order. Numbers rise with dates, so no date lies between two
that are numbered in a row, and where there is an earlier date at all
the day before exists (`before?_eq_some_iff`).
-/
import Mathlib.Order.Cover
import Mathlib.Tactic.IntervalCases
import Payroll.Proofs.RuleBook
import Payroll.Proofs.Text.Period

namespace Payroll

/-- Nothing lies between two elements that are numbered in a row. -/
theorem covBy_of_number {α : Type} [LT α] {number : α → ℤ}
    (hnumber : ∀ a b : α, a < b ↔ number a < number b) {a b : α}
    (h : number a + 1 = number b) : a ⋖ b := by
  refine ⟨(hnumber a b).2 (by omega), fun c hac hcb => ?_⟩
  rw [hnumber] at hac hcb
  omega

namespace Date

-- ============================================================= leap years

/-- Every fourth year, and of those that end a century every fourth. -/
def LeapYear (year : ℤ) : Prop := 4 ∣ year ∧ (100 ∣ year → 400 ∣ year)

instance (year : ℤ) : Decidable (LeapYear year) :=
  inferInstanceAs (Decidable (_ ∧ (_ → _)))

/-- The lengths of the months of a year, January first. -/
def monthLengths (year : ℤ) : List ℕ :=
  [31, if LeapYear year then 29 else 28, 31, 30, 31, 30, 31, 31, 30, 31,
    30, 31]

theorem isLeap_iff {year : ℤ} : isLeap year = true ↔ LeapYear year := by
  unfold isLeap LeapYear
  simp only [Bool.and_eq_true, Bool.or_eq_true, beq_iff_eq, bne_iff_ne]
  omega

theorem getElem?_monthLengths (year : ℤ) {month : ℕ} (h₁ : 1 ≤ month)
    (h₂ : month ≤ 12) :
    (monthLengths year)[month - 1]? = some (daysInMonth year month) := by
  unfold monthLengths daysInMonth
  simp only [isLeap_iff]
  interval_cases month <;> rfl

-- ================================================================ numbers

/-- The days from the year 1 on that come before a year. -/
def daysBeforeYear (year : ℤ) : ℤ :=
  365 * (year - 1) + (year - 1) / 4 - (year - 1) / 100 + (year - 1) / 400

/-- The days from the year 1 on that come before a month. -/
def daysBefore (year : ℤ) (month : ℕ) : ℤ :=
  daysBeforeYear year + (367 * month - 362) / 12
    - if month ≤ 2 then 0 else if LeapYear year then 1 else 2

/-- The number of a date: how many days there are from the year 1 on,
the date among them. -/
def number (d : Date) : ℤ := daysBefore d.year d.month + d.day

/-- A year has 365 days, a leap year one more. -/
theorem daysBeforeYear_succ (year : ℤ) : daysBeforeYear (year + 1)
    = daysBeforeYear year + if LeapYear year then 366 else 365 := by
  unfold daysBeforeYear
  split <;> rename_i hleap <;> unfold LeapYear at hleap <;> omega

/-- January follows the year before. -/
theorem daysBefore_january (year : ℤ) :
    daysBefore year 1 = daysBeforeYear year := by
  rw [daysBefore, if_pos (by decide)]
  omega

/-- A month is as long as its share of the year. -/
theorem daysBefore_succ (year : ℤ) {month : ℕ} (h₁ : 1 ≤ month)
    (h₂ : month < 12) : daysBefore year (month + 1)
      = daysBefore year month + daysInMonth year month := by
  unfold daysBefore daysInMonth
  simp only [isLeap_iff]
  by_cases hleap : LeapYear year
  · simp only [hleap, if_true]
    interval_cases month <;> simp <;> omega
  · simp only [hleap, if_false]
    interval_cases month <;> simp <;> omega

/-- December closes the year. -/
theorem daysBefore_next_january (year : ℤ) : daysBefore (year + 1) 1
    = daysBefore year 12 + daysInMonth year 12 := by
  have hlength : daysInMonth year 12 = 31 := rfl
  rw [daysBefore_january, daysBeforeYear_succ, hlength, daysBefore]
  split <;> simp <;> omega

/-- A month lies before every later one of its year. -/
theorem daysBefore_le (year : ℤ) {month later : ℕ} (h₁ : 1 ≤ month)
    (hlt : month < later) (h₂ : later ≤ 12) :
    daysBefore year month + daysInMonth year month
      ≤ daysBefore year later := by
  induction later, hlt using Nat.le_induction with
  | base => exact (daysBefore_succ year h₁ (by omega)).ge
  | succ later hlt ih =>
      rw [daysBefore_succ year (by omega) (by omega)]
      have := ih (by omega)
      omega

/-- A month lies before every later year. -/
theorem daysBefore_le_year {year later : ℤ} {month : ℕ} (h₁ : 1 ≤ month)
    (h₂ : month ≤ 12) (hlt : year < later) :
    daysBefore year month + daysInMonth year month
      ≤ daysBeforeYear later := by
  have hyear : daysBefore year month + daysInMonth year month
      ≤ daysBeforeYear (year + 1) := by
    rw [← daysBefore_january, daysBefore_next_january]
    rcases h₂.lt_or_eq with h₂ | rfl
    · have := daysBefore_le year h₁ h₂ le_rfl
      omega
    · exact le_rfl
  refine hyear.trans ?_
  unfold daysBeforeYear
  omega

theorem daysBeforeYear_le (year : ℤ) {month : ℕ} (h₁ : 1 ≤ month)
    (h₂ : month ≤ 12) : daysBeforeYear year ≤ daysBefore year month := by
  rw [← daysBefore_january]
  rcases h₁.lt_or_eq with h₁ | rfl
  · have := daysBefore_le year le_rfl h₁ h₂
    omega
  · exact le_rfl

/-- Numbers rise with dates. -/
theorem number_lt {a b : Date} (h : a < b) : a.number < b.number := by
  have hday := a.day_le
  have hday' := b.day_ge
  unfold number
  rcases lt_iff.1 h with hyear | ⟨hyear, hmonth | ⟨hmonth, hlt⟩⟩
  · have := daysBefore_le_year a.month_ge a.month_le hyear
    have := daysBeforeYear_le b.year b.month_ge b.month_le
    omega
  · have := daysBefore_le a.year a.month_ge hmonth b.month_le
    rw [← hyear]
    omega
  · rw [hyear, hmonth]
    omega

theorem lt_iff_number (a b : Date) : a < b ↔ a.number < b.number := by
  refine ⟨number_lt, fun h => not_le.1 fun hle => ?_⟩
  by_cases heq : b = a
  · rw [heq] at h
    exact absurd h (Int.lt_irrefl _)
  · have := number_lt (lt_of_le_of_ne hle heq)
    omega

theorem number_injective : Function.Injective number := by
  intro a b h
  by_contra hne
  rcases le_total a b with hle | hle
  · exact (number_lt (lt_of_le_of_ne hle hne)).ne h
  · exact (number_lt (lt_of_le_of_ne hle (Ne.symm hne))).ne h.symm

-- ========================================================= the day before

theorem of?_eq_some_iff {year : ℤ} {month day : ℕ} {d : Date} :
    of? year month day = some d
      ↔ d.year = year ∧ d.month = month ∧ d.day = day := by
  constructor
  · intro h
    unfold of? at h
    split at h
    · cases h
      exact ⟨rfl, rfl, rfl⟩
    · cases h
  · rintro ⟨rfl, rfl, rfl⟩
    exact d.of?_self

/-- The day before a date, if the calendar has it. -/
def before? (d : Date) : Option Date :=
  if 1 < d.day then of? d.year d.month (d.day - 1)
  else if 1 < d.month then
    of? d.year (d.month - 1) (daysInMonth d.year (d.month - 1))
  else of? (d.year - 1) 12 31

/-- The day before is numbered one lower. -/
theorem number_of_before? {c d : Date} (h : d.before? = some c) :
    c.number + 1 = d.number := by
  have hday := d.day_ge
  have hmonth := d.month_ge
  unfold before? at h
  unfold number
  split at h
  · obtain ⟨hy, hm, hd⟩ := of?_eq_some_iff.1 h
    rw [hy, hm, hd]
    omega
  · have hfirst : d.day = 1 := by omega
    split at h
    · obtain ⟨hy, hm, hd⟩ := of?_eq_some_iff.1 h
      have hstep := @daysBefore_succ d.year (d.month - 1) (by omega)
        (by have := d.month_le; omega)
      rw [Nat.sub_add_cancel hmonth] at hstep
      rw [hy, hm, hd, hstep, hfirst]
      omega
    · obtain ⟨hy, hm, hd⟩ := of?_eq_some_iff.1 h
      have hjanuary : d.month = 1 := by omega
      have hstep := daysBefore_next_january (d.year - 1)
      have hlength : daysInMonth (d.year - 1) 12 = 31 := rfl
      rw [Int.sub_add_cancel, hlength] at hstep
      rw [hy, hm, hd, hjanuary, hfirst, hstep]
      omega

/-- The first day of the calendar is the only one without a day before
it. -/
theorem exists_before? {c d : Date} (h : c < d) :
    ∃ b, d.before? = some b := by
  have hday := d.day_le
  have hmonth := d.month_le
  have hyear := d.year_le
  have hfirst := d.year_ge
  have hmonth' := d.month_ge
  unfold before?
  split
  · exact ⟨⟨d.year, d.month, d.day - 1, d.year_ge, d.year_le, d.month_ge,
      d.month_le, by omega, by omega⟩, of?_eq_some_iff.2 ⟨rfl, rfl, rfl⟩⟩
  · split
    · exact ⟨⟨d.year, d.month - 1, daysInMonth d.year (d.month - 1),
        d.year_ge, d.year_le, by omega, by omega, one_le_daysInMonth _ _,
        Nat.le_refl _⟩, of?_eq_some_iff.2 ⟨rfl, rfl, rfl⟩⟩
    · -- on 1 January whatever is earlier is of an earlier year
      have hearlier : c.year < d.year := by
        have := c.day_ge
        have := c.month_ge
        rw [lt_iff] at h
        omega
      have hrange := c.year_ge
      exact ⟨⟨d.year - 1, 12, 31, by omega, by omega, by decide, by decide,
        by decide, le_refl 31⟩, of?_eq_some_iff.2 ⟨rfl, rfl, rfl⟩⟩

/-- The day before a date is the one with nothing between the two. -/
theorem before?_eq_some_iff {c d : Date} :
    d.before? = some c ↔ c ⋖ d := by
  constructor
  · intro h
    exact covBy_of_number lt_iff_number (number_of_before? h)
  · rintro ⟨hlt, hgap⟩
    obtain ⟨b, hb⟩ := exists_before? hlt
    have hnumber := number_of_before? hb
    -- a date below `d` is numbered below it, so at most as high as `b`
    have hbd : b < d := (lt_iff_number b d).2 (by omega)
    have hle : ¬c.number < b.number :=
      fun h => hgap ((lt_iff_number c b).2 h) hbd
    have hcd := number_lt hlt
    have heq : b = c := number_injective (by omega)
    rw [hb, heq]

/-- A day is numbered one higher than the day before it. -/
theorem number_of_covBy {c d : Date} (h : c ⋖ d) :
    c.number + 1 = d.number :=
  number_of_before? (before?_eq_some_iff.2 h)

end Date

end Payroll
