/-
Every income has its bracket. A bracket covers the incomes from its
lower bound up to, but not including, its upper bound. The brackets of a
table cover each income that is not negative exactly once.

Once is enough: of two brackets the lower one ends where the next one
starts, or before, so no income lies in both (`Precedes`). And it is
never missed: the highest bracket that an income reaches is either the
last one, which has no end, or ends where the next one starts, which the
income does not reach (`covers_reached`). That is the bracket which the
table looks up.
-/
import Payroll.Document.Rules
import Payroll.Proofs.IncomeTax.Monotone

namespace Payroll

open Decimal

/-- Whether a bracket is for an income. At its upper bound the next
bracket begins. -/
def Bracket.Covers (b : Bracket) (income : Decimal) : Prop :=
  b.minIncome ≤ income ∧ ∀ upper, b.maxIncome = some upper → income < upper

theorem Bracket.covers_iff {b : Bracket} {income : Decimal} :
    b.Covers income ↔ b.minIncome.toRat ≤ income.toRat
      ∧ ∀ upper, b.maxIncome = some upper →
        income.toRat < upper.toRat := by
  simp only [Covers, le_iff_toRat, lt_iff_toRat]

namespace BracketTable

variable {income : Decimal} {b b' next : Bracket}
  {above rest brackets : List Bracket}

-- ============================================================ no overlap

/-- What a bracket covers is behind those that precede it. -/
theorem Precedes.not_covers (h : Precedes b b') (hb' : b'.Covers income) :
    ¬b.Covers income := by
  obtain ⟨upper, hmax, -, hle⟩ := h
  intro hb
  have habove := (Bracket.covers_iff.1 hb').1
  have hbelow := (Bracket.covers_iff.1 hb).2 upper hmax
  linarith

theorem covers_unique (h : brackets.Pairwise Precedes) {i j : ℕ}
    (hi : i < brackets.length) (hj : j < brackets.length)
    (hci : brackets[i].Covers income) (hcj : brackets[j].Covers income) :
    i = j := by
  have hordered := List.pairwise_iff_getElem.1 h
  rcases lt_trichotomy i j with hlt | heq | hlt
  · exact absurd hci ((hordered i j hi hj hlt).not_covers hcj)
  · exact heq
  · exact absurd hcj ((hordered j i hj hi hlt).not_covers hci)

-- ================================================================= no gap

/-- From a bracket on that an income reaches, the highest one reached
covers it. -/
theorem covers_reached (hadjoining : (b :: rest).IsChain Adjoins)
    (htop : ∀ b' ∈ (b :: rest).getLast?, b'.maxIncome = none)
    (hmin : b.minIncome.toRat ≤ income.toRat) :
    ((reached? income rest).getD b).Covers income := by
  induction rest generalizing b with
  | nil =>
      show b.Covers income
      refine Bracket.covers_iff.2 ⟨hmin, fun upper hupper => ?_⟩
      rw [htop b rfl] at hupper
      cases hupper
  | cons next above ih =>
      obtain ⟨⟨upper, hmax, -, hnext⟩, habove⟩ :=
        List.isChain_cons_cons.1 hadjoining
      rw [equiv_iff_toRat] at hnext
      rw [List.getLast?_cons_cons] at htop
      rcases le_or_gt next.minIncome.toRat income.toRat with hle | hlt
      · rw [getD_reached?_cons hle]
        exact ih habove htop hle
      · -- the bounds rise, so the brackets further up are not reached either
        rw [reached?_cons_eq_none (pairwise_precedes habove) hlt]
        show b.Covers income
        refine Bracket.covers_iff.2 ⟨hmin, fun upper' hupper' => ?_⟩
        rw [hmax] at hupper'
        cases hupper'
        exact hnext ▸ hlt

variable (t : BracketTable)

/-- The bracket that is looked up covers the income. -/
theorem covers_bracketOf (h : 0 ≤ income.toRat) :
    (t.bracketOf income).Covers income := by
  obtain ⟨first, rest, hbrackets, hfirst⟩ := t.exists_first
  have hwell := hbrackets ▸ t.wellFormed
  have hmin : first.minIncome.toRat ≤ income.toRat := hfirst.trans_le h
  rw [t.bracketOf_cons hbrackets hmin]
  exact covers_reached hwell.adjoining hwell.top hmin

/-- No other bracket does. -/
theorem eq_bracketOf (hb : b ∈ t.brackets) (hcovers : b.Covers income)
    (h : 0 ≤ income.toRat) : b = t.bracketOf income := by
  obtain ⟨i, hi, hbi⟩ := List.mem_iff_getElem.1 hb
  obtain ⟨j, hj, hbj⟩ := List.mem_iff_getElem.1 (t.bracketOf_mem income)
  have hij : i = j := covers_unique (pairwise_precedes
    t.wellFormed.adjoining) hi hj (hbi ▸ hcovers)
    (hbj ▸ t.covers_bracketOf h)
  subst hij
  exact hbi.symm.trans hbj

-- ============================================================== partition

/-- Brackets that divide the incomes from zero on among themselves. -/
structure Partition (brackets : List Bracket) : Prop where
  rising : brackets.Pairwise (·.minIncome < ·.minIncome)
  inhabited : ∀ b ∈ brackets, b.Covers b.minIncome
  nonneg : ∀ b ∈ brackets, ∀ income, b.Covers income → .zero ≤ income
  unique : ∀ income, .zero ≤ income →
    ∃! i : Fin brackets.length, brackets[i].Covers income

theorem partition : Partition t.brackets where
  rising := t.rising.imp lt_iff_toRat.2
  inhabited := fun b hb => Bracket.covers_iff.2
    ⟨le_rfl, (t.proper b hb).min_lt_max⟩
  nonneg := by
    intro b hb income hcovers
    rw [le_iff_toRat, toRat_zero]
    exact (t.minIncome_nonneg b hb).trans (Bracket.covers_iff.1 hcovers).1
  unique := by
    intro income h
    rw [le_iff_toRat, toRat_zero] at h
    obtain ⟨i, hi, hbi⟩ := List.mem_iff_getElem.1 (t.bracketOf_mem income)
    have hcovers : t.brackets[i].Covers income := hbi ▸ t.covers_bracketOf h
    refine ⟨⟨i, hi⟩, hcovers, fun j hj => Fin.ext ?_⟩
    exact covers_unique (pairwise_precedes t.wellFormed.adjoining) j.2 hi hj
      hcovers

-- ============================================================= acceptance

theorem brackets_of_ofBrackets {t : BracketTable}
    (h : ofBrackets brackets = .ok t) : t.brackets = brackets := by
  unfold ofBrackets at h
  split at h <;> cases h
  rfl

theorem ofBrackets_brackets : ofBrackets t.brackets = .ok t := by
  unfold ofBrackets
  split
  · rfl
  · rename_i h
    rw [t.checked] at h
    cases h

theorem exists_ofBrackets_iff :
    (∃ t, ofBrackets brackets = .ok t) ↔ WellFormed brackets := by
  rw [← check_eq_ok]
  unfold ofBrackets
  split
  · rename_i h
    exact iff_of_true ⟨_, rfl⟩ h
  · rename_i e h
    simp only [h, reduceCtorEq, exists_false]

theorem exists_defect_of_ofBrackets {sum : Decimal}
    (hsum : taxBelow brackets.dropLast = .ok sum)
    (h : ¬WellFormed brackets) :
    ∃ defect, ofBrackets brackets = .error (.malformed defect) := by
  have hrefuses := refuses_check hsum
  unfold ofBrackets
  split
  · rename_i hcheck
    exact absurd (check_eq_ok.1 hcheck) h
  · rename_i f hcheck
    rw [hcheck] at hrefuses
    obtain ⟨defect, rfl⟩ := hrefuses
    exact ⟨defect, rfl⟩

theorem ofDocument_eq_ok {d : Document} {t : BracketTable} :
    ofDocument d = .ok t ↔ ∃ brackets,
      d.asList Bracket.ofDocument = .ok brackets
        ∧ ofBrackets brackets = .ok t := by
  have haccepted : ∀ x : Except Failure BracketTable,
      Document.accepted x = .ok t ↔ x = .ok t := by
    intro x
    unfold Document.accepted
    split <;> simp
  simp only [ofDocument, bind_eq_ok, haccepted]

/-- A table is made of exactly the well-formed lists of brackets, also
where it is read from a document. Other brackets are refused for a
defect, unless there is no sum to compare their fixed amounts with. The
brackets of a table rise and divide all incomes that are not negative
among themselves. -/
theorem ofBrackets_accepts :
    (∀ brackets, (∃ t, ofBrackets brackets = .ok t) ↔ WellFormed brackets)
    ∧ (∀ brackets t, ofBrackets brackets = .ok t → t.brackets = brackets)
    ∧ (∀ d : Document, (∃ t, ofDocument d = .ok t) ↔ ∃ brackets,
        d.asList Bracket.ofDocument = .ok brackets ∧ WellFormed brackets)
    ∧ (∀ (d : Document) t, ofDocument d = .ok t →
        d.asList Bracket.ofDocument = .ok t.brackets)
    ∧ (∀ brackets sum, taxBelow brackets.dropLast = .ok sum →
        ¬WellFormed brackets →
        ∃ defect, ofBrackets brackets = .error (.malformed defect))
    ∧ ∀ t : BracketTable, Partition t.brackets := by
  refine ⟨fun _ => exists_ofBrackets_iff, fun _ _ => brackets_of_ofBrackets,
    fun d => ?_, fun d t h => ?_, fun brackets sum hsum hdefect => ?_,
    partition⟩
  · simp only [ofDocument_eq_ok, ← exists_ofBrackets_iff]
    exact ⟨fun ⟨t, l, hl, ht⟩ => ⟨l, hl, t, ht⟩,
      fun ⟨l, hl, t, ht⟩ => ⟨t, l, hl, ht⟩⟩
  · obtain ⟨brackets, hread, ht⟩ := ofDocument_eq_ok.1 h
    rw [brackets_of_ofBrackets ht]
    exact hread
  · exact exists_defect_of_ofBrackets hsum hdefect

/-- Three brackets whose bounds are so far apart in size that both taxes
below the last one are rounded. -/
def hairline : List Bracket :=
  [⟨0, some 0.0000000000000000000000000003, 0.5, 0⟩,
    ⟨0.0000000000000000000000000003, some 10, 1,
      0.0000000000000000000000000002⟩,
    ⟨10.0, none, 0.3, 10⟩]

theorem check_hairline : check hairline = .ok () := by decide +kernel

/-- The same with the tax of the first one cut off. -/
def hairlineCut : List Bracket :=
  [⟨0, some 0.0000000000000000000000000003, 0.5, 0⟩,
    ⟨0.0000000000000000000000000003, some 10, 1,
      0.0000000000000000000000000001⟩,
    ⟨10.0, none, 0.3, 10⟩]

/-- The rounded taxes make a table, and it is the rounded sums that a
bracket has to carry. -/
theorem ofBrackets_accepts_hairline :
    (∃ t, ofBrackets hairline = .ok t ∧ t.brackets = hairline
      ∧ Partition t.brackets)
    ∧ taxBelow hairlineCut.dropLast
        = .ok (.of 10000000000000000000000000000 27)
    ∧ ∃ defect, ofBrackets hairlineCut = .error (.malformed defect) := by
  obtain ⟨haccepts, hbrackets, -, -, hrefuses, hpartition⟩ :=
    ofBrackets_accepts
  have hsum : taxBelow hairlineCut.dropLast
      = .ok (.of 10000000000000000000000000000 27) := by
    decide +kernel
  have hcut : ¬check hairlineCut = .ok () := by decide +kernel
  obtain ⟨t, ht⟩ := (haccepts hairline).2 (check_eq_ok.1 check_hairline)
  exact ⟨⟨t, ht, hbrackets _ t ht, hpartition t⟩, hsum,
    hrefuses _ _ hsum fun h => hcut (check_eq_ok.2 h)⟩

end BracketTable

end Payroll
