/-
Payroll periods: calendar months, written `YYYY-MM`. A period is a year
and a month that the calendar has, ordered by time.

The last day of a period is the day before the next period starts. The
very last month of the calendar has no next one and counts its first
day as its last; every other period ends on the last day of its month.
-/
import Payroll.Calendar.Date
import Payroll.Text.Blank
import Payroll.Text.Digits

namespace Payroll

/-- A calendar month. -/
@[ext] structure Period where
  year : Int
  month : Nat
  year_ge : Date.minYear ≤ year := by decide
  year_le : year ≤ Date.maxYear := by decide
  month_ge : 1 ≤ month := by decide
  month_le : month ≤ 12 := by decide

namespace Period

instance : DecidableEq Period := fun _ _ =>
  decidable_of_iff _ Period.ext_iff.symm

/-- The period of a year and a month, if the calendar has it. -/
def of? (year : Int) (month : Nat) : Option Period :=
  if h : (Date.minYear ≤ year ∧ year ≤ Date.maxYear)
      ∧ 1 ≤ month ∧ month ≤ 12 then
    some
      { year, month
        year_ge := h.1.1, year_le := h.1.2
        month_ge := h.2.1, month_le := h.2.2 }
  else none

/-- The period of a year and a month, which is checked to exist where it
is written. -/
def of (year : Int) (month : Nat)
    (h : (of? year month).isSome := by exact Eq.refl true) : Period :=
  (of? year month).get h

/-- The period that a date falls in. -/
def containing (d : Date) : Period :=
  { year := d.year, month := d.month
    year_ge := d.year_ge, year_le := d.year_le
    month_ge := d.month_ge, month_le := d.month_le }

instance : LT Period where
  lt p q := p.year < q.year ∨ p.year = q.year ∧ p.month < q.month

instance : LE Period where
  le p q := p.year < q.year ∨ p.year = q.year ∧ p.month ≤ q.month

instance (p q : Period) : Decidable (p < q) :=
  inferInstanceAs (Decidable (_ ∨ _ ∧ _))

instance (p q : Period) : Decidable (p ≤ q) :=
  inferInstanceAs (Decidable (_ ∨ _ ∧ _))

/-- A period with one of the days of its month. -/
def dayOf (p : Period) (day : Nat) (h₁ : 1 ≤ day)
    (h₂ : day ≤ Date.daysInMonth p.year p.month) : Date :=
  { year := p.year, month := p.month, day
    year_ge := p.year_ge, year_le := p.year_le
    month_ge := p.month_ge, month_le := p.month_le
    day_ge := h₁, day_le := h₂ }

def firstDay (p : Period) : Date :=
  p.dayOf 1 Nat.le.refl (Date.one_le_daysInMonth _ _)

/-- The last day before the next period, or the first day where the
calendar ends. -/
def lastDay (p : Period) : Date :=
  if p.year = Date.maxYear ∧ p.month = 12 then p.firstDay
  else p.dayOf (Date.daysInMonth p.year p.month)
    (Date.one_le_daysInMonth _ _) (Nat.le_refl _)

/-- How many days a period has. -/
def days (p : Period) : Nat := p.lastDay.day

theorem days_le (p : Period) : p.days ≤ 31 :=
  Nat.le_trans p.lastDay.day_le (Date.daysInMonth_le _ _)

-- ================================================================== text

open Payroll.Text

/-- A year in at least four characters, of which a minus sign is
one. -/
def yearText (year : Int) : List Char :=
  if year < 0 then '-' :: digits 3 year.natAbs else digits 4 year.natAbs

def toText (p : Period) : String :=
  String.ofList (yearText p.year ++ '-' :: digits 2 p.month)

/-- A text that names no period. -/
structure ParseError where
  text : String
deriving DecidableEq

def ParseError.message (e : ParseError) : String :=
  s!"Invalid payroll period '{e.text}', expected YYYY-MM"

/-- Reads four characters for the year and two for the month around the
first hyphen, blanks at both ends aside. Both numbers may start with a
plus sign, which takes the place of a digit. -/
def parse (s : String) : Except ParseError Period :=
  let body := trim s.toList
  let year := body.takeWhile (· != '-')
  let month := (body.dropWhile (· != '-')).drop 1
  if year.length = body.length ∨ year.length ≠ 4 ∨ month.length ≠ 2 then
    .error ⟨s⟩
  else
    match readCount year, readCount month with
    | some y, some m =>
      match of? y m with
      | some p => .ok p
      | none => .error ⟨s⟩
    | _, _ => .error ⟨s⟩

end Period

end Payroll
