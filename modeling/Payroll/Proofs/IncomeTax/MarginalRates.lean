/-
Tables from rates. What a table is made of is where its brackets start
and what their rates are. Ends and fixed amounts follow from that, and
a table can be built from the rest. Building it and forgetting ends and
fixed amounts undo each other, in both directions.

The tax below a bracket is formed twice, while the brackets are built
and while they are checked, each time from the lowest one up. Built
brackets are checked against the very same sums, so nothing but the
rates and their order can be wrong with them
(`wellFormedFrom_cumulate`). A given table may end a bracket with
another spelling of the bound at which the next one starts, and so the
sums come back with the same values and not always with the same
digits.
-/
import Payroll.Proofs.IncomeTax.Partition

namespace Payroll

open Decimal

/-- Brackets of one value in each of their parts. -/
structure Bracket.SameValues (b b' : Bracket) : Prop where
  minIncome : b.minIncome ≈ b'.minIncome
  maxIncome : Option.Rel (· ≈ ·) b.maxIncome b'.maxIncome
  rate : b.rate ≈ b'.rate
  fixedAmount : b.fixedAmount ≈ b'.fixedAmount

namespace BracketTable

variable {fixed tax : Decimal} {lower upper rate rate' : Decimal}
  {rates rest : List (Decimal × Decimal)} {brackets : List Bracket}

/-- A bracket without its end and its fixed amount. -/
def marginal (b : Bracket) : Decimal × Decimal := (b.minIncome, b.rate)

/-- Adds to a tax what the incomes between the bounds are taxed, from
the lowest bound to the highest. -/
def taxBetween (tax : Decimal) (rates : List (Decimal × Decimal)) :
    Except Fault Decimal :=
  (rates.zip rates.tail).foldlM
    (fun tax e => addSlice tax e.1.1 e.2.1 e.1.2) tax

/-- Rates of a progressive tax: shares, each from a bound on that is
higher than the one before, the first from zero on. -/
structure Progressive (rates : List (Decimal × Decimal)) : Prop where
  nonempty : rates ≠ []
  first : ∀ e ∈ rates.head?, e.1 ≈ .zero
  rising : rates.Pairwise (·.1 < ·.1)
  shares : ∀ e ∈ rates, IsShare e.2

-- =============================================================== building

theorem cumulate_cons_cons_eq_ok :
    cumulate fixed ((lower, rate) :: (upper, rate') :: rest) = .ok brackets
      ↔ ∃ fixed' above, addSlice fixed lower upper rate = .ok fixed'
        ∧ cumulate fixed' ((upper, rate') :: rest) = .ok above
        ∧ ⟨lower, some upper, rate, fixed⟩ :: above = brackets := by
  rw [cumulate, ← slice_bind ⟨lower, some upper, rate, fixed⟩]
  simp only [bind_eq_ok, pure, Except.pure, Except.ok.injEq]
  constructor
  · rintro ⟨slice, hslice, fixed', hfixed', above, habove, h⟩
    exact ⟨fixed', above, ⟨slice, hslice, hfixed'⟩, habove, h⟩
  · rintro ⟨fixed', above, ⟨slice, hslice, hfixed'⟩, habove, h⟩
    exact ⟨slice, hslice, fixed', hfixed', above, habove, h⟩

theorem taxBetween_cons_cons_eq_ok {sum : Decimal} :
    taxBetween tax ((lower, rate) :: (upper, rate') :: rest) = .ok sum
      ↔ ∃ tax', addSlice tax lower upper rate = .ok tax'
        ∧ taxBetween tax' ((upper, rate') :: rest) = .ok sum :=
  bind_eq_ok

/-- Forgetting undoes building. -/
theorem map_marginal_cumulate (h : cumulate fixed rates = .ok brackets) :
    brackets.map marginal = rates := by
  induction rates generalizing fixed brackets with
  | nil =>
      cases h
      rfl
  | cons e rest ih =>
      obtain ⟨lower, rate⟩ := e
      cases rest with
      | nil =>
          cases h
          rfl
      | cons e' rest =>
          obtain ⟨fixed', above, -, habove, rfl⟩ :=
            cumulate_cons_cons_eq_ok.1 h
          rw [List.map_cons, ih habove]
          rfl

/-- Brackets are built where their taxes can be added up, and carry the
sums. -/
theorem exists_cumulate {sum : Decimal}
    (h : taxBetween fixed rates = .ok sum) :
    ∃ brackets, cumulate fixed rates = .ok brackets
      ∧ brackets.dropLast.foldlM addWhole fixed = .ok sum := by
  induction rates generalizing fixed with
  | nil => exact ⟨[], rfl, h⟩
  | cons e rest ih =>
      obtain ⟨lower, rate⟩ := e
      cases rest with
      | nil => exact ⟨_, rfl, h⟩
      | cons e' rest =>
          obtain ⟨upper, rate'⟩ := e'
          obtain ⟨fixed', hfixed', h⟩ := taxBetween_cons_cons_eq_ok.1 h
          obtain ⟨above, habove, hsum⟩ := ih h
          have hne : above ≠ [] := by
            rintro rfl
            cases map_marginal_cumulate habove
          refine ⟨_, cumulate_cons_cons_eq_ok.2
            ⟨fixed', above, hfixed', habove, rfl⟩, ?_⟩
          rw [List.dropLast_cons_of_ne_nil hne, List.foldlM_cons,
            bind_eq_ok]
          exact ⟨fixed', hfixed', hsum⟩

/-- What can be wrong with brackets that were built is the order of the
bounds or a rate. -/
theorem wellFormedFrom_cumulate (h : cumulate fixed rates = .ok brackets) :
    WellFormedFrom fixed brackets
      ↔ rates.IsChain (·.1 < ·.1) ∧ ∀ e ∈ rates, IsShare e.2 := by
  induction rates generalizing fixed brackets with
  | nil =>
      cases h
      exact iff_of_true wellFormedFrom_nil ⟨.nil, nofun⟩
  | cons e rest ih =>
      obtain ⟨lower, rate⟩ := e
      cases rest with
      | nil =>
          cases h
          rw [wellFormedFrom_singleton, List.forall_mem_singleton]
          exact ⟨fun h => ⟨.singleton _, h.1⟩,
            fun h => ⟨h.2, equiv_refl _, rfl⟩⟩
      | cons e' rest =>
          obtain ⟨fixed', above, hfixed', habove, rfl⟩ :=
            cumulate_cons_cons_eq_ok.1 h
          obtain ⟨next, above, rfl, hnext, -⟩ :=
            List.map_eq_cons_iff.1 (map_marginal_cumulate habove)
          have hmin : next.minIncome = e'.1 := congrArg Prod.fst hnext
          have hadjoins : Adjoins ⟨lower, some e'.1, rate, fixed⟩ next
              ↔ lower < e'.1 := by
            rw [Adjoins, hmin]
            constructor
            · rintro ⟨_, ⟨⟩, hwidth, -⟩
              exact hwidth
            · exact fun hwidth => ⟨_, rfl, hwidth, equiv_refl _⟩
          rw [wellFormedFrom_cons_cons, hadjoins, List.isChain_cons_cons,
            List.forall_mem_cons]
          constructor
          · rintro ⟨hrate, -, hwidth, tax', htax', hrest⟩
            cases hfixed'.symm.trans htax'
            obtain ⟨hrising, hshares⟩ := (ih habove).1 hrest
            exact ⟨⟨hwidth, hrising⟩, hrate, hshares⟩
          · rintro ⟨⟨hwidth, hrising⟩, hrate, hshares⟩
            exact ⟨hrate, equiv_refl _, hwidth, fixed', hfixed',
              (ih habove).2 ⟨hrising, hshares⟩⟩

instance : Trans (fun e e' : Decimal × Decimal => e.1 < e'.1)
    (fun e e' : Decimal × Decimal => e.1 < e'.1)
    (fun e e' : Decimal × Decimal => e.1 < e'.1) where
  trans h h' := lt_iff_toRat.2 ((lt_iff_toRat.1 h).trans (lt_iff_toRat.1 h'))

/-- Built brackets make a table where the rates are those of a
progressive tax. -/
theorem wellFormed_cumulate (h : cumulate .zero rates = .ok brackets) :
    WellFormed brackets ↔ Progressive rates := by
  have hmarginal := map_marginal_cumulate h
  have hne : brackets ≠ [] ↔ rates ≠ [] := by
    rw [← hmarginal, ne_eq, ne_eq, List.map_eq_nil_iff]
  have hfirst : (∀ b ∈ brackets.head?, b.minIncome ≈ .zero)
      ↔ ∀ e ∈ rates.head?, e.1 ≈ .zero := by
    rw [← hmarginal, List.head?_map]
    cases brackets.head? <;> simp [marginal]
  have hchain := wellFormedFrom_cumulate h
  rw [List.isChain_iff_pairwise] at hchain
  constructor
  · intro hwell
    obtain ⟨hrising, hshares⟩ := hchain.1 hwell.toWellFormedFrom
    exact ⟨hne.1 hwell.nonempty, hfirst.1 hwell.first, hrising, hshares⟩
  · intro hrates
    exact ⟨hchain.2 ⟨hrates.rising, hrates.shares⟩, hne.2 hrates.nonempty,
      hfirst.2 hrates.first⟩

theorem ofMarginalRates_eq_ok {t : BracketTable} :
    ofMarginalRates rates = .ok t ↔ cumulate .zero rates = .ok t.brackets := by
  rw [ofMarginalRates, bind_eq_ok]
  simp only [liftM_fault_eq_ok]
  constructor
  · rintro ⟨brackets, hbrackets, h⟩
    rw [brackets_of_ofBrackets h]
    exact hbrackets
  · intro h
    exact ⟨t.brackets, h, ofBrackets_brackets t⟩

theorem exists_ofMarginalRates_iff
    (h : cumulate .zero rates = .ok brackets) :
    (∃ t, ofMarginalRates rates = .ok t) ↔ Progressive rates := by
  rw [← wellFormed_cumulate h, ← exists_ofBrackets_iff]
  rw [ofMarginalRates, h]
  rfl

-- ============================================================ building again

/-- Building undoes forgetting, up to spelling. -/
theorem exists_cumulate_sameValues (h : WellFormedFrom tax brackets)
    (hfixed : fixed ≈ tax) :
    ∃ brackets', cumulate fixed (brackets.map marginal) = .ok brackets'
      ∧ List.Forall₂ Bracket.SameValues brackets' brackets := by
  induction brackets generalizing fixed tax with
  | nil => exact ⟨[], rfl, .nil⟩
  | cons b rest ih =>
      cases rest with
      | nil =>
          obtain ⟨-, hcarried, htop⟩ := wellFormedFrom_singleton.1 h
          refine ⟨_, rfl, .cons ⟨equiv_refl _, ?_, equiv_refl _, ?_⟩ .nil⟩
          · rw [htop]
            exact .none
          · exact equiv_trans hfixed (equiv_symm hcarried)
      | cons next above =>
          obtain ⟨-, hcarried, ⟨upper, hmax, -, hnext⟩, tax', htax', hrest⟩ :=
            wellFormedFrom_cons_cons.1 h
          rw [addWhole, hmax] at htax'
          obtain ⟨fixed', hfixed', hvalue⟩ := (addSlice_agree
            (equiv_symm hfixed) (equiv_refl b.minIncome) (equiv_symm hnext)
            (equiv_refl b.rate)).exists_ok htax'
          obtain ⟨above', habove, hsame⟩ :=
            ih hrest (equiv_iff_toRat.2 hvalue)
          refine ⟨_, cumulate_cons_cons_eq_ok.2
            ⟨fixed', above', hfixed', habove, rfl⟩,
            .cons ⟨equiv_refl _, ?_, equiv_refl _, ?_⟩ hsame⟩
          · rw [hmax]
            exact .some hnext
          · exact equiv_trans hfixed (equiv_symm hcarried)

/-- The rates of a table are those of a progressive tax. -/
theorem progressive (t : BracketTable) :
    Progressive (t.brackets.map marginal) where
  nonempty := by
    rw [ne_eq, List.map_eq_nil_iff]
    exact t.brackets_ne_nil
  first := by
    rw [List.head?_map]
    rintro e he
    obtain ⟨b, hb, rfl⟩ := Option.map_eq_some_iff.1 he
    exact t.wellFormed.first b hb
  rising := List.pairwise_map.2 t.partition.rising
  shares := by
    intro e he
    obtain ⟨b, hb, rfl⟩ := List.mem_map.1 he
    exact t.wellFormed.rates b hb

/-- Where the taxes between the bounds can be added up, a table is made
of exactly the rates of a progressive tax, and these are its rates;
others are refused for a defect. The rates of every table make that
table again. -/
theorem ofMarginalRates_inverse :
    (∀ rates sum, taxBetween .zero rates = .ok sum →
      ((∃ t, ofMarginalRates rates = .ok t) ↔ Progressive rates)
      ∧ (∀ t, ofMarginalRates rates = .ok t →
        t.brackets.map marginal = rates)
      ∧ (¬Progressive rates →
        ∃ defect, ofMarginalRates rates = .error (.malformed defect)))
    ∧ ∀ t : BracketTable, ∃ t',
      ofMarginalRates (t.brackets.map marginal) = .ok t'
        ∧ List.Forall₂ Bracket.SameValues t'.brackets t.brackets := by
  constructor
  · intro rates sum hsum
    obtain ⟨brackets, hbrackets, hbelow⟩ := exists_cumulate hsum
    refine ⟨exists_ofMarginalRates_iff hbrackets, fun t ht => ?_,
      fun hrates => ?_⟩
    · exact map_marginal_cumulate (ofMarginalRates_eq_ok.1 ht)
    · rw [← wellFormed_cumulate hbrackets] at hrates
      rw [ofMarginalRates, hbrackets]
      exact exists_defect_of_ofBrackets hbelow hrates
  · intro t
    obtain ⟨brackets, hbrackets, hsame⟩ := exists_cumulate_sameValues
      t.wellFormed.toWellFormedFrom (equiv_refl .zero)
    obtain ⟨t', ht'⟩ :=
      (exists_ofMarginalRates_iff hbrackets).2 t.progressive
    refine ⟨t', ht', ?_⟩
    rw [ofMarginalRates_eq_ok, hbrackets] at ht'
    cases ht'
    exact hsame

/-- Rounded taxes are rounded alike when they are formed again, and a
bound that is given twice is refused however it is written. -/
theorem ofMarginalRates_inverse_hairline :
    (∃ t, ofMarginalRates (hairline.map marginal) = .ok t
      ∧ t.brackets.map marginal = hairline.map marginal
      ∧ List.Forall₂ Bracket.SameValues t.brackets hairline)
    ∧ ∃ defect, ofMarginalRates [(0, 0.5), (10, 1), (10.0, 0.3)]
        = .error (.malformed defect) := by
  obtain ⟨hbuilt, hagain⟩ := ofMarginalRates_inverse
  have hsum : taxBetween .zero (hairline.map marginal)
      = .ok (.of 10000000000000000000000000000 27) := by
    decide +kernel
  have hsum' : taxBetween .zero [(0, 0.5), (10, 1), (10.0, 0.3)]
      = .ok 5.0 := by
    decide +kernel
  obtain ⟨t, ht, hsame⟩ := hagain ⟨hairline, check_hairline⟩
  refine ⟨⟨t, ht, (hbuilt _ _ hsum).2.1 t ht, hsame⟩,
    (hbuilt _ _ hsum').2.2 fun h => ?_⟩
  exact absurd h.rising (by decide +kernel)

end BracketTable

end Payroll
