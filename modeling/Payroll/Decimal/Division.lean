/-
Division of amounts: long division that brings down up to nine digits
at a time.

The divisor is a magnitude `d`, and the state is the dividend scaled
so far: `n / d` at scale `s` is always the exact quotient, and one
round replaces `n` by `n * 10 ^ p` and `s` by `s + p`. The division
ends when the remainder is zero, when no further digit has room (the
quotient is then rounded, a tie to even), or when a round has brought
down one digit too many (the quotient is rounded one digit shorter).
`longDivide` terminates because every round raises a scale that never
passes 28.

A quotient that left a remainder on the way is shortened at the end,
by at most seven zeros unless its magnitude is a multiple of 2^32.
The zeros that remain are part of the answer: one half is 0.50, since
its digits came down in pairs of zeros that were not all dropped.
-/
import Payroll.Decimal.Arithmetic

namespace Payroll.Decimal

open scoped Power

/-- How many digits can be brought down at once below a quotient `q` at
scale `s`: at most nine, while the scale and the quotient stay in
range. -/
def room (q : Nat) (s : Int) : Nat :=
  ([9, 8, 7, 6, 5, 4, 3, 2, 1].find? fun (p : Nat) =>
    decide (s + (p : Int) ≤ maxScale) && decide (q * 10 ^ p < limit)).getD 0

/-- A round that has room keeps the scale in range. -/
theorem room_le {q : Nat} {s : Int} (h : room q s ≠ 0) :
    s + (room q s : Int) ≤ maxScale := by
  unfold room at h ⊢
  cases hf : [9, 8, 7, 6, 5, 4, 3, 2, 1].find? fun (p : Nat) =>
      decide (s + (p : Int) ≤ maxScale) && decide (q * 10 ^ p < limit) with
  | none => simp [hf] at h
  | some p =>
    have := List.find?_some hf
    simp only [Bool.and_eq_true, decide_eq_true_eq] at this
    simpa using this.1

/-- The quotient `n / d` at scale `s` as an amount without its sign.
A quotient without remainder and with a negative scale is written out
in full. -/
def longDivide (d n : Nat) (s : Int) : Option Decimal :=
  let q := n / d
  let p := room q s
  if n % d = 0 then
    settle (q * 10 ^ (-s).toNat : Nat) s.toNat
  else if s < 0 ∧ p < 9 ∧ s + p < 0 then none
  else if h : p = 0 then
    settle (quotient .toEven n d) s.toNat
  else
    let n' := n * 10 ^ p
    let s' := s + p
    if n' / d < limit then longDivide d n' s'
    else if s' ≤ 0 then none
    else settle (quotient .toEven n' (10 * d)) (s' - 1).toNat
termination_by (maxScale - s).toNat
decreasing_by
  have hroom : room (n / d) s ≠ 0 := h
  have := room_le hroom
  simp only [maxScale] at this ⊢
  omega

/-- Drops eight zeros at once from a magnitude that is also a multiple
of 2^32. -/
def shortenByEight (a : Decimal) : Decimal :=
  if a.magnitude % 2 ^ (32 : Nat) = 0 then a.shorten 8 else a

/-- Drops zeros in the steps eight (at most three times), four, two and
one, each step only if all of its digits are zeros. -/
def shortenQuotient (a : Decimal) : Decimal :=
  (((Nat.repeat shortenByEight 3 a).shorten 4).shorten 2).shorten 1

/-- The quotient of two amounts; `none` when it is too large. The
divisor is not zero. A quotient rounded to zero has no sign. -/
def div? (a b : Decimal) : Option Decimal :=
  if a.isZero then some zero
  else
    let n := a.magnitude
    let d := b.magnitude
    let signed := fun (m : Decimal) =>
      (if a.negative = b.negative then m else -m).signZero false
    match longDivide d n ((a.scale : Int) - b.scale) with
    | none => none
    | some m => some (signed (if n % d = 0 then m else m.shortenQuotient))

def div (a b : Decimal) : Except Fault Decimal :=
  if b.isZero then .error .divisionByZero
  else orFault .divisionOverflow (a.div? b)

end Payroll.Decimal
