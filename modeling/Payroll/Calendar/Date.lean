/-
Dates of the Gregorian calendar, extended backwards past its
introduction. A date is a year, a month and a day that name a day which
exists, so nothing that takes a date has to check one. The range of
years is the one that rule books and periods can name.

Dates are ordered by year, then month, then day.
-/

namespace Payroll

/-- The first and the last year of the calendar. -/
def Date.minYear : Int := -262143
def Date.maxYear : Int := 262142

/-- Every fourth year is a leap year, of the years that end a century
only every fourth. -/
def Date.isLeap (year : Int) : Bool :=
  year % 4 == 0 && (year % 100 != 0 || year % 400 == 0)

def Date.daysInMonth (year : Int) (month : Nat) : Nat :=
  if month = 2 then (if isLeap year then 29 else 28)
  else if month = 4 ∨ month = 6 ∨ month = 9 ∨ month = 11 then 30
  else 31

/-- A day that exists. -/
structure Date where
  year : Int
  month : Nat
  day : Nat
  year_ge : Date.minYear ≤ year := by decide
  year_le : year ≤ Date.maxYear := by decide
  month_ge : 1 ≤ month := by decide
  month_le : month ≤ 12 := by decide
  day_ge : 1 ≤ day := by decide
  day_le : day ≤ Date.daysInMonth year month := by decide
deriving DecidableEq

namespace Date

theorem one_le_daysInMonth (year : Int) (month : Nat) :
    1 ≤ daysInMonth year month := by
  unfold daysInMonth
  repeat' split
  all_goals decide

theorem daysInMonth_le (year : Int) (month : Nat) :
    daysInMonth year month ≤ 31 := by
  unfold daysInMonth
  repeat' split
  all_goals decide

/-- The date of a year, a month and a day, if there is such a day. -/
def of? (year : Int) (month day : Nat) : Option Date :=
  if h : (minYear ≤ year ∧ year ≤ maxYear) ∧ (1 ≤ month ∧ month ≤ 12)
      ∧ 1 ≤ day ∧ day ≤ daysInMonth year month then
    some
      { year, month, day
        year_ge := h.1.1, year_le := h.1.2
        month_ge := h.2.1.1, month_le := h.2.1.2
        day_ge := h.2.2.1, day_le := h.2.2.2 }
  else none

instance : LT Date where
  lt a b := a.year < b.year ∨ a.year = b.year
    ∧ (a.month < b.month ∨ a.month = b.month ∧ a.day < b.day)

instance : LE Date where
  le a b := a.year < b.year ∨ a.year = b.year
    ∧ (a.month < b.month ∨ a.month = b.month ∧ a.day ≤ b.day)

instance (a b : Date) : Decidable (a < b) :=
  inferInstanceAs (Decidable (_ ∨ _ ∧ (_ ∨ _ ∧ _)))

instance (a b : Date) : Decidable (a ≤ b) :=
  inferInstanceAs (Decidable (_ ∨ _ ∧ (_ ∨ _ ∧ _)))

-- ============================================================== the order

theorem lt_iff {a b : Date} : a < b ↔ a.year < b.year ∨ a.year = b.year
    ∧ (a.month < b.month ∨ a.month = b.month ∧ a.day < b.day) := Iff.rfl

theorem le_iff {a b : Date} : a ≤ b ↔ a.year < b.year ∨ a.year = b.year
    ∧ (a.month < b.month ∨ a.month = b.month ∧ a.day ≤ b.day) := Iff.rfl

theorem le_trans {a b c : Date} (h₁ : a ≤ b) (h₂ : b ≤ c) : a ≤ c := by
  rw [le_iff] at *
  omega

theorem le_total (a b : Date) : a ≤ b ∨ b ≤ a := by
  rw [le_iff, le_iff]
  omega

/-- Of two dates that are not the same, one is earlier. -/
theorem lt_of_le_of_ne {a b : Date} (h : a ≤ b) (hne : a ≠ b) : a < b := by
  rw [le_iff] at h
  rw [lt_iff]
  have : ¬(a.year = b.year ∧ a.month = b.month ∧ a.day = b.day) := by
    rintro ⟨h₁, h₂, h₃⟩
    apply hne
    cases a
    cases b
    simp_all
  omega

end Date

end Payroll
