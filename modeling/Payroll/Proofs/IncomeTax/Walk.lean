/-
The closed form and the walk. A bracket table promises that the tax of
an income can be read off the one bracket that the income falls in. The
walk adds up the brackets from below; the closed form starts at the
fixed amount of the bracket found from above. They meet because the
table was only built after the check had formed the same sum, in the
same order, as the walk forms.

# The induction

Well-formedness and `walk` go down the brackets together, the one with
the tax `cumulative` below a bracket and the other with the tax added up
so far. As long as the income reaches the next bracket, both add the
tax of a whole slice, and the two sums stay of one value: that is the
invariant of `walk_agree`. In the bracket where the income ends, the
fixed amount was checked to be that value too.

Rounding needs no argument of its own. Both sides do the same additions
and multiplications on amounts of the same values, so they round alike
and overflow together. At an upper bound the walk may take the income
itself for the end of the slice instead of the bound, which is a
different spelling of one value.
-/
import Payroll.Proofs.IncomeTax.Table

namespace Payroll.BracketTable

open Decimal

-- ============================================================ the closed form

/-- The tax of an income read off a bracket that it falls in. -/
def closedForm (b : Bracket) (income : Decimal) : Except Fault Decimal :=
  if income ≤ b.minIncome then .ok b.fixedAmount
  else do
    let slice ← b.slice income
    b.fixedAmount.add slice

/-- The highest of some brackets that starts at or below an income. -/
def reached? (income : Decimal) (brackets : List Bracket) :
    Option Bracket :=
  brackets.reverse.find? fun b => decide (b.minIncome ≤ income)

/-- Numbering the brackets does not change which one is found. -/
theorem bracketOf_eq (t : BracketTable) (income : Decimal) :
    t.bracketOf income
      = (reached? income t.brackets).getD
        (t.brackets.head t.brackets_ne_nil) := by
  have hfound : reached? income t.brackets
      = (t.brackets.zipIdx.reverse.find?
        fun e => decide (e.1.minIncome ≤ income)).map (·.1) := by
    have hplain : t.brackets.reverse
        = t.brackets.zipIdx.reverse.map (·.1) := by
      rw [List.map_reverse, List.zipIdx_map_fst]
    rw [reached?, hplain, List.find?_map]
    rfl
  rw [hfound, bracketOf, locate]
  cases t.brackets.zipIdx.reverse.find?
      fun e => decide (e.1.minIncome ≤ income) with
  | none => rfl
  | some e => rfl

theorem reached?_cons (income : Decimal) (b : Bracket)
    (rest : List Bracket) :
    reached? income (b :: rest)
      = (reached? income rest).or
        (if b.minIncome ≤ income then some b else none) := by
  unfold reached?
  rw [List.reverse_cons, List.find?_append, List.find?_cons]
  by_cases h : b.minIncome ≤ income <;> simp [h]

/-- No bracket is reached that starts above the income. -/
theorem reached?_eq_none {income : Decimal} {brackets : List Bracket}
    (h : ∀ b ∈ brackets, income.toRat < b.minIncome.toRat) :
    reached? income brackets = none := by
  rw [reached?, List.find?_eq_none]
  intro b hb
  rw [decide_eq_true_eq, le_iff_toRat, not_le]
  exact h b (List.mem_reverse.1 hb)

/-- From a bracket on that an income reaches, the brackets below it do
not matter. -/
theorem getD_reached?_cons {income : Decimal} {b next : Bracket}
    {above : List Bracket} (h : next.minIncome.toRat ≤ income.toRat) :
    (reached? income (next :: above)).getD b
      = (reached? income above).getD next := by
  rw [reached?_cons, if_pos (le_iff_toRat.2 h)]
  cases reached? income above <;> rfl

/-- Of brackets in order none is reached if the lowest one is not. -/
theorem reached?_cons_eq_none {income : Decimal} {b : Bracket}
    {rest : List Bracket} (hordered : (b :: rest).Pairwise Precedes)
    (h : income.toRat < b.minIncome.toRat) :
    reached? income (b :: rest) = none := by
  have habove := (List.pairwise_cons.1 hordered).1
  refine reached?_eq_none (List.forall_mem_cons.2 ⟨h, fun b' hb' => ?_⟩)
  exact h.trans (habove b' hb').minIncome_lt

theorem bracketOf_cons (t : BracketTable) {income : Decimal}
    {first : Bracket} {rest : List Bracket}
    (hbrackets : t.brackets = first :: rest)
    (h : first.minIncome.toRat ≤ income.toRat) :
    t.bracketOf income = (reached? income rest).getD first := by
  rw [bracketOf_eq]
  simp only [hbrackets, List.head_cons]
  exact getD_reached?_cons h

/-- A slice reads the value of its upper end. -/
theorem slice_agree (b : Bracket) {u u' : Decimal} (h : u ≈ u') :
    Agree (b.slice u) (b.slice u') :=
  (sub_agree h (equiv_refl _)).bind fun _ _ hw =>
    mul_agree hw (equiv_refl _)

-- ============================================================== the walk

/-- Where the slice of an income in a bracket ends. -/
def slicedTo (b : Bracket) (income : Decimal) : Decimal :=
  match b.maxIncome with
  | some m => min income m
  | none => income

theorem walk_cons (income tax : Decimal) (b : Bracket)
    (rest : List Bracket) :
    walk income tax (b :: rest)
      = if income ≤ b.minIncome then .ok tax
        else b.slice (slicedTo b income) >>= fun slice =>
          tax.add slice >>= fun tax' => walk income tax' rest := rfl

/-- The walk stops at a bracket that the income does not exceed. -/
theorem walk_of_le {income tax : Decimal} {b : Bracket}
    {rest : List Bracket} (h : income.toRat ≤ b.minIncome.toRat) :
    walk income tax (b :: rest) = .ok tax := by
  rw [walk, if_pos (le_iff_toRat.2 h)]

/-- The walk goes on past a bracket that the income exceeds. -/
theorem walk_of_lt {income tax slice tax' t : Decimal} {b : Bracket}
    {rest : List Bracket} (h : b.minIncome.toRat < income.toRat)
    (hslice : b.slice (slicedTo b income) = .ok slice)
    (htax' : tax.add slice = .ok tax')
    (hrest : walk income tax' rest = .ok t) :
    walk income tax (b :: rest) = .ok t := by
  have habove : ¬income ≤ b.minIncome := by
    rw [le_iff_toRat, not_le]
    exact h
  rw [walk_cons, if_neg habove, hslice, ok_bind, htax', ok_bind, hrest]

/-- Where an income reaches into a bracket and the ones above it are out
of reach, walk and closed form do the same last step. -/
theorem closedForm_agree_walk {income tax : Decimal} {b : Bracket}
    {rest : List Bracket} (htax : b.fixedAmount ≈ tax)
    (hupper : slicedTo b income = income)
    (hrest : ∀ tax', walk income tax' rest = .ok tax') :
    Agree (closedForm b income) (walk income tax (b :: rest)) := by
  rw [closedForm, walk_cons, hupper]
  split
  · exact htax
  · refine (slice_agree b (equiv_refl income)).bind fun slice slice' hs => ?_
    have hlast : (tax.add slice' >>= fun tax' => walk income tax' rest)
        = tax.add slice' := by
      simp only [hrest]
      cases tax.add slice' <;> rfl
    rw [hlast]
    exact add_agree htax hs

/-- From a bracket on that an income reaches, the walk comes to the
closed form of the highest bracket reached, provided that it has added
up what the table accumulated. -/
theorem walk_agree {income : Decimal} {rest : List Bracket} :
    ∀ {b : Bracket} {cumulative tax : Decimal},
      WellFormedFrom cumulative (b :: rest) →
      tax ≈ cumulative → b.minIncome.toRat ≤ income.toRat →
      Agree (closedForm ((reached? income rest).getD b) income)
        (walk income tax (b :: rest)) := by
  induction rest with
  | nil =>
      intro b cumulative tax hwell htax _
      obtain ⟨-, hfixed, hmax⟩ := wellFormedFrom_singleton.1 hwell
      rw [equiv_iff_toRat] at htax hfixed
      show Agree (closedForm b income) (walk income tax [b])
      refine closedForm_agree_walk ?_ ?_ fun _ => rfl
      · rw [equiv_iff_toRat, hfixed, htax]
      · rw [slicedTo, hmax]
  | cons next above ih =>
      intro b cumulative tax hwell htax hmin
      obtain ⟨-, hfixed, ⟨upper, hmax, hwidth, hnext⟩, cumulative', hwhole,
        hrest⟩ := wellFormedFrom_cons_cons.1 hwell
      obtain ⟨slice, hslice, hsum⟩ := (addWhole_eq_ok hmax).1 hwhole
      have hnext' := equiv_iff_toRat.1 hnext
      have hwidth' := lt_iff_toRat.1 hwidth
      rcases le_or_gt next.minIncome.toRat income.toRat with hle | hlt
      · -- the income reaches the next bracket: a whole slice is added
        have hupper : min income upper ≈ upper := by
          rw [equiv_iff_toRat, toRat_min, ← hnext']
          exact min_eq_right hle
        have hbelow : ¬income ≤ b.minIncome := by
          rw [le_iff_toRat, not_le]
          exact lt_of_lt_of_le hwidth' (hnext' ▸ hle)
        obtain ⟨slice', hslice', hvalue⟩ :=
          (slice_agree b (equiv_iff_toRat.2
            (equiv_iff_toRat.1 hupper).symm)).exists_ok hslice
        have hadd := add_agree
          (equiv_iff_toRat.2 (equiv_iff_toRat.1 htax).symm)
          (equiv_iff_toRat.2 hvalue.symm)
        obtain ⟨tax', htax', hvalue'⟩ := hadd.exists_ok hsum
        have hend : slicedTo b income = min income upper := by
          rw [slicedTo, hmax]
        rw [getD_reached?_cons hle, walk_cons, if_neg hbelow, hend,
          hslice', ok_bind, htax', ok_bind]
        exact ih hrest (equiv_iff_toRat.2 hvalue') hle
      · -- the income ends in this bracket
        rw [reached?_cons_eq_none (pairwise_precedes hrest.adjoining) hlt]
        show Agree (closedForm b income) _
        refine closedForm_agree_walk ?_ ?_ fun tax' => walk_of_le hlt.le
        · rw [equiv_iff_toRat] at htax hfixed ⊢
          rw [hfixed, htax]
        · rw [slicedTo, hmax]
          show (if upper < income then upper else income) = income
          rw [if_neg]
          rw [lt_iff_toRat, not_lt, ← hnext']
          exact hlt.le

/-- The tax of an income that is not negative is the closed form of its
bracket. -/
theorem tax_eq_closedForm (t : BracketTable) {income : Decimal}
    (h : 0 ≤ income.toRat) :
    t.tax income = liftM (closedForm (t.bracketOf income) income) := by
  have hneg : ¬income < .zero := by
    rw [lt_iff_toRat, toRat_zero, not_lt]
    exact h
  rw [tax, if_neg hneg, closedForm]
  simp only
  split
  · rfl
  · cases hs : (t.bracketOf income).slice income <;> rfl

theorem marginalTax_eq_walk (t : BracketTable) {income : Decimal}
    (h : 0 ≤ income.toRat) :
    t.marginalTax income = liftM (walk income .zero t.brackets) := by
  rw [marginalTax, if_neg]
  rw [lt_iff_toRat, toRat_zero, not_lt]
  exact h

/-- On an income that is not negative the walk ends with the closed form
of the bracket that the income falls in. -/
theorem tax_agree_of_nonneg (t : BracketTable) {income : Decimal}
    (h : 0 ≤ income.toRat) :
    Agree (t.tax income) (t.marginalTax income) := by
  obtain ⟨first, rest, hbrackets, hfirst⟩ := t.exists_first
  have hmin : first.minIncome.toRat ≤ income.toRat := hfirst.trans_le h
  have hwell := hbrackets ▸ t.wellFormed.toWellFormedFrom
  rw [tax_eq_closedForm t h, marginalTax_eq_walk t h,
    t.bracketOf_cons hbrackets hmin, hbrackets]
  exact (walk_agree hwell (equiv_refl _) hmin).lift

/-- The closed form and the walk come to the same on every table and
every income: to amounts of one value or to the same failure. On a
negative income both refuse it. -/
theorem tax_agree_marginalTax (t : BracketTable) (income : Decimal) :
    Agree (t.tax income) (t.marginalTax income)
      ∧ (income < .zero →
        t.tax income
            = .error (.calculation (.negativeTaxableIncome income))
          ∧ t.marginalTax income
            = .error (.calculation (.negativeTaxableIncome income))) := by
  have hneg : income < .zero →
      t.tax income = .error (.calculation (.negativeTaxableIncome income))
        ∧ t.marginalTax income
          = .error (.calculation (.negativeTaxableIncome income)) := by
    intro h
    exact ⟨by rw [tax, if_pos h], by rw [marginalTax, if_pos h]⟩
  refine ⟨?_, hneg⟩
  by_cases h : income < .zero
  · rw [(hneg h).1, (hneg h).2]
    rfl
  · rw [lt_iff_toRat, toRat_zero, not_lt] at h
    exact tax_agree_of_nonneg t h

end Payroll.BracketTable
