/-
Times of day, to the millisecond. The last second of a minute may run
to two thousand milliseconds, which is how a leap second is written; a
span that starts before such a second and ends after it is one second
longer than its clock readings differ.
-/

namespace Payroll

/-- A time of day. `second` counts from midnight. -/
structure ClockTime where
  second : Nat
  milli : Nat
deriving DecidableEq

namespace ClockTime

/-- The time of a reading in hours, minutes, seconds and milliseconds,
if a clock can show it. -/
def of? (hour minute second milli : Nat) : Option ClockTime :=
  if hour < 24 ∧ minute < 60 ∧ second < 60
      ∧ (milli < 1000 ∨ second = 59 ∧ milli < 2000) then
    some { second := hour * 3600 + minute * 60 + second, milli }
  else none

/-- Whether a time lies inside a leap second. -/
def inLeapSecond (t : ClockTime) : Bool := 1000 ≤ t.milli

/-- The milliseconds from `start` to `t`, negative if `t` is the
earlier of the two. -/
def since (t start : ClockTime) : Int :=
  let seconds : Int := (t.second : Int) - start.second
  let leap : Int :=
    if start.second < t.second ∧ start.inLeapSecond then 1
    else if t.second < start.second ∧ t.inLeapSecond then -1
    else 0
  (seconds + leap) * 1000 + ((t.milli : Int) - start.milli)

/-- The whole minutes by which `actual` is later than `scheduled`, none
if it is not later. -/
def minutesLate (scheduled actual : ClockTime) : Nat :=
  (actual.since scheduled).toNat / 60000

end ClockTime

end Payroll
