/-
Whole quotients rounded to the nearest integer. Every place where an
amount loses digits (a sum or product that no longer fits, the last
digit of a division, the rounding of money) is one application of
`quotient`, told what to do with an exact tie.

The floor `n / d` and its remainder decide the answer on both sides of
zero: `n = (n / d) * d + n % d` with `0 ≤ n % d < d`, so the upper
neighbour is the nearer one exactly when twice the remainder exceeds
`d`. No sign needs a case of its own, and only the tie away from zero
asks for the sign of `n`.

`natAbs_quotient_le` is what makes the bounded coefficients of
`Decimal` closed under rounding: a quotient is never larger in
magnitude than its numerator.
-/

namespace Payroll.Power

-- A power of whole numbers is the one of the core library, also in a file
-- that sees another definition of powers.
scoped instance natPow : Pow Nat Nat := instPowNat

scoped instance intPow : Pow Int Nat := instPowNat

end Payroll.Power

namespace Payroll.Decimal

/-- What to do with a quotient that lies half-way between two
integers. -/
inductive Tie where
  | toEven
  | awayFromZero
deriving DecidableEq

/-- Whether a tie at `n / d + 1/2` goes to the upper neighbour. -/
def Tie.goesUp (n : Int) (d : Nat) : Tie → Bool
  | .toEven => n / d % 2 == 1
  | .awayFromZero => decide (0 ≤ n)

/-- The integer nearest to `n / d`, a tie going where `tie` says. -/
def quotient (tie : Tie) (n : Int) (d : Nat) : Int :=
  if (d : Int) < 2 * (n % d) then n / d + 1
  else if 2 * (n % d) = (d : Int) ∧ tie.goesUp n d then n / d + 1
  else n / d

-- ================================================= magnitude of a quotient

/-- A rounded quotient is never larger in magnitude than its
numerator: it steps above the floor only when the remainder is
positive, and then the floor lies below the numerator. -/
theorem natAbs_quotient_le (tie : Tie) (n : Int) {d : Nat} (hd : 0 < d) :
    (quotient tie n d).natAbs ≤ n.natAbs := by
  have hfloor := Int.natAbs_ediv_le_natAbs n d
  have hd' : (0 : Int) < d := by omega
  have key : 0 < n % (d : Int) → (n / (d : Int) + 1).natAbs ≤ n.natAbs := by
    intro hr
    have hn := Int.mul_ediv_add_emod n d
    rcases Int.lt_or_le n 0 with h | h
    · have : n / (d : Int) < 0 := Int.ediv_neg_of_neg_of_pos h hd'
      omega
    · have h0 : 0 ≤ n / (d : Int) := Int.ediv_nonneg h (by omega)
      have := Int.mul_le_mul_of_nonneg_right
        (show (1 : Int) ≤ d by omega) h0
      omega
  unfold quotient
  split
  · exact key (by omega)
  · split
    · exact key (by omega)
    · exact hfloor

end Payroll.Decimal
