/-
The brackets of a progressive income tax. A bracket covers the incomes
from its lower bound up to, but not including, its upper bound, and
carries the tax due on all lower brackets, so that the tax of an income
in it is

    fixed amount + (income - lower bound) * rate.

A table is only built from brackets that pass `check`: the first starts
at zero, each one ends where the next begins, the last has no upper
bound, rates lie between 0 and 1, and each fixed amount is the tax
accumulated below it. The accumulation is the same sum, in the same
order, that `marginalTax` walks through; that is what makes the closed
form and the walk agree.
-/
import Payroll.Error.Basic

namespace Payroll

open Decimal (Fault)

/-- One bracket. -/
structure Bracket where
  /-- The lowest income covered. -/
  minIncome : Decimal
  /-- The first income no longer covered; none in the top bracket. -/
  maxIncome : Option Decimal
  rate : Decimal
  /-- The tax due on all lower brackets. -/
  fixedAmount : Decimal
deriving DecidableEq

/-- The tax on the part of an income from the lower bound up to
`upper`. -/
def Bracket.slice (b : Bracket) (upper : Decimal) : Except Fault Decimal := do
  let width ← upper.sub b.minIncome
  width.mul b.rate

namespace BracketTable

/-- Checks the brackets from number `index` on, `cumulative` being the
tax due below them. -/
def checkFrom (index : Nat) (cumulative : Decimal) :
    List Bracket → Except Failure Unit
  | [] => .ok ()
  | b :: rest =>
    if b.rate < .zero ∨ .one < b.rate then
      .error (.malformed (.bracketRate index b.rate))
    else if ¬ b.fixedAmount ≈ cumulative then
      .error (.malformed (.fixedAmount index b.fixedAmount cumulative))
    else
      match b.maxIncome, rest with
      | none, [] => .ok ()
      | some _, [] => .error (.malformed .lastBracketBounded)
      | none, _ :: _ => .error (.malformed (.innerBracketUnbounded index))
      | some upper, next :: above =>
        if upper ≤ b.minIncome then
          .error (.malformed (.emptyBracket index upper b.minIncome))
        else if ¬ next.minIncome ≈ upper then
          .error (.malformed (.bracketGap index upper next.minIncome))
        else do
          let slice ← b.slice upper
          let cumulative' ← cumulative.add slice
          checkFrom (index + 1) cumulative' (next :: above)

/-- Checks that brackets form a table. -/
def check : List Bracket → Except Failure Unit
  | [] => .error (.malformed .noBrackets)
  | b :: rest =>
    if ¬ b.minIncome ≈ .zero then
      .error (.malformed (.firstBracketAt b.minIncome))
    else checkFrom 0 .zero (b :: rest)

end BracketTable

/-- Brackets, lowest first, that passed every check. -/
structure BracketTable where
  brackets : List Bracket
  checked : BracketTable.check brackets = .ok ()

namespace BracketTable

theorem brackets_ne_nil (t : BracketTable) : t.brackets ≠ [] := by
  intro h
  have hc := t.checked
  rw [h] at hc
  cases hc

instance : DecidableEq BracketTable := fun a b =>
  decidable_of_iff (a.brackets = b.brackets)
    ⟨fun h => by cases a; cases b; cases h; rfl, fun h => h ▸ rfl⟩

/-- The table of a list of brackets. -/
def ofBrackets (brackets : List Bracket) : Except Failure BracketTable :=
  match h : check brackets with
  | .ok () => .ok ⟨brackets, h⟩
  | .error e => .error e

/-- Brackets from lower bounds and rates: each one ends at the next
lower bound, and its fixed amount adds the tax of the one below it. -/
def cumulate (fixed : Decimal) :
    List (Decimal × Decimal) → Except Fault (List Bracket)
  | [] => .ok []
  | [(lower, rate)] => .ok [⟨lower, none, rate, fixed⟩]
  | (lower, rate) :: (upper, rate') :: rest => do
    let bracket : Bracket := ⟨lower, some upper, rate, fixed⟩
    let slice ← bracket.slice upper
    let fixed' ← fixed.add slice
    let above ← cumulate fixed' ((upper, rate') :: rest)
    return bracket :: above

/-- The table of lower bounds and the rates that apply above them. -/
def ofMarginalRates (rates : List (Decimal × Decimal)) :
    Except Failure BracketTable := do
  let brackets ← cumulate .zero rates
  ofBrackets brackets

-- =============================================================== looking up

/-- The highest bracket that starts at or below an income, with its
number; the lowest bracket if there is none. -/
def locate (t : BracketTable) (income : Decimal) : Bracket × Nat :=
  (t.brackets.zipIdx.reverse.find?
      fun e => decide (e.1.minIncome ≤ income)).getD
    (t.brackets.head t.brackets_ne_nil, 0)

/-- The bracket that an income falls in. -/
def bracketOf (t : BracketTable) (income : Decimal) : Bracket :=
  (t.locate income).1

/-- The number of the bracket that an income falls in. -/
def indexOf (t : BracketTable) (income : Decimal) : Nat :=
  (t.locate income).2

-- ================================================================== the tax

/-- The tax on an income, from the bracket that it falls in. -/
def tax (t : BracketTable) (income : Decimal) : Except Failure Decimal :=
  if income < .zero then
    .error (.calculation (.negativeTaxableIncome income))
  else
    let b := t.bracketOf income
    if income ≤ b.minIncome then .ok b.fixedAmount
    else do
      let slice ← b.slice income
      b.fixedAmount.add slice

/-- Adds to `tax` the tax of every bracket that an income reaches. -/
def walk (income tax : Decimal) : List Bracket → Except Fault Decimal
  | [] => .ok tax
  | b :: rest =>
    if income ≤ b.minIncome then .ok tax
    else do
      let upper := match b.maxIncome with
        | some m => min income m
        | none => income
      let slice ← b.slice upper
      let tax' ← tax.add slice
      walk income tax' rest

/-- The tax on an income as the sum of its parts in every bracket. -/
def marginalTax (t : BracketTable) (income : Decimal) :
    Except Failure Decimal :=
  if income < .zero then
    .error (.calculation (.negativeTaxableIncome income))
  else liftM (walk income .zero t.brackets)

end BracketTable

end Payroll
