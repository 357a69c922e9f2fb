/-
Rounding an amount to a number of fraction digits. An amount that has
no more digits than asked for is returned as it is written; otherwise
the result has exactly that many, zeros included. An amount that is
rounded to zero loses its sign, and a zero that is rounded keeps it.

`trunc`, `floor` and `ceil` give whole amounts. They keep the sign of
what they cut off, so that the whole part of -0.5 is a minus zero.
-/
import Payroll.Decimal.Basic

namespace Payroll.Decimal

open scoped Power

/-- The amount with at most `places` fraction digits that is nearest,
a tie going where `tie` says. -/
def round (tie : Tie) (places : Nat) (a : Decimal) : Decimal :=
  if h : a.scale ≤ places then a
  else
    (of (quotient tie a.coefficient (10 ^ (a.scale - places))) places
      (Nat.lt_of_le_of_lt (natAbs_quotient_le tie _ (Nat.pow_pos (by decide)))
        (by simpa using a.magnitude_lt))
      (Nat.le_trans (Nat.le_of_lt (Nat.lt_of_not_le h))
        a.scale_le)).signZero (a.isZero && a.negative)

theorem scale_round_le (tie : Tie) (places : Nat) (a : Decimal) :
    (a.round tie places).scale ≤ places := by
  unfold round
  split
  · assumption
  · simp [of]

/-- The amount without its fraction. -/
def trunc (a : Decimal) : Decimal :=
  { negative := a.negative
    magnitude := a.magnitude / 10 ^ a.scale
    scale := 0
    magnitude_lt :=
      Nat.lt_of_le_of_lt (Nat.div_le_self _ _) a.magnitude_lt
    scale_le := Nat.zero_le maxScale }

/-- The largest whole amount not above `a`. -/
def floor (a : Decimal) : Decimal :=
  if a.magnitude % 10 ^ a.scale = 0 then a.trunc
  else
    of (a.coefficient / (10 ^ a.scale : Nat)) 0
      (Nat.lt_of_le_of_lt (Int.natAbs_ediv_le_natAbs _ _)
        (by simpa using a.magnitude_lt)) (Nat.zero_le maxScale)

/-- The smallest whole amount not below `a`. -/
def ceil (a : Decimal) : Decimal := -(-a).floor

end Payroll.Decimal
