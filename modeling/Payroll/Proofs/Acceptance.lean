/-
Which rules are accepted. A book is made of every list of snapshots that
is not empty, names no date twice, and holds nothing but well-formed
snapshots; of no other list is there a book.

# Acceptance

The checks stop at the first defect, remember the names they have
passed, and compare dates only of neighbours in the sorted list. What
passes does not depend on any of this: a chain of checks passes where
each of them does, a name was not seen before where no two are the same,
and sorted dates rise where none occurs twice.

# Refusal

What is refused is refused for a defect that the answer names. There is
one other end. The employee's rates are summed up before the total is
compared, and the sum of rates that pass one by one may still be too
large to be an amount.
-/
import Payroll.Proofs.Endings
import Payroll.Proofs.RuleBook
import Payroll.Proofs.Snapshot

namespace Payroll

-- ============================================================= acceptance

namespace RuleBook

variable {l : List Snapshot} {j : Jurisdiction}

/-- Snapshots that are well formed, at least one and no two of one
date. -/
structure WellFormed (l : List Snapshot) : Prop where
  nonempty : l ≠ []
  dates : (l.map (·.effectiveDate)).Nodup
  snapshots : ∀ s ∈ l, s.WellFormed

/-- Where no date occurs twice, sorted dates rise. -/
theorem rising_sortByDate (h : (l.map (·.effectiveDate)).Nodup) :
    (sortByDate l).Pairwise (·.effectiveDate < ·.effectiveDate) := by
  have hsame : ((sortByDate l).map (·.effectiveDate)).Nodup :=
    ((List.mergeSort_perm _ _).map _).nodup_iff.2 h
  have hne : (sortByDate l).Pairwise (·.effectiveDate ≠ ·.effectiveDate) :=
    List.pairwise_map.1 hsame
  exact (List.pairwise_and_iff.2 ⟨pairwise_sortByDate l, hne⟩).imp
    fun h => Date.lt_of_le_of_ne h.1 h.2

theorem exists_ofSnapshots_iff :
    (∃ book, ofSnapshots j l = .ok book) ↔ WellFormed l := by
  constructor
  · rintro ⟨book, h⟩
    obtain ⟨hne, -, hperm⟩ := ofSnapshots_eq_ok.1 h
    have hdates : (book.snapshots.map (·.effectiveDate)).Nodup :=
      List.pairwise_map.2 (book.rising.imp Date.ne_of_lt)
    exact {
      nonempty := hne
      dates := (hperm.map _).nodup_iff.1 hdates
      snapshots := fun s hs => Snapshot.check_eq_ok.1
        (book.checked s (hperm.mem_iff.2 hs)) }
  · intro h
    have hsame : (sortByDate l).Perm l := List.mergeSort_perm _ _
    exact ⟨{
      jurisdiction := j
      snapshots := sortByDate l
      rising := rising_sortByDate h.dates
      checked := fun s hs => Snapshot.check_eq_ok.2
        (h.snapshots s (hsame.mem_iff.1 hs)) },
      ofSnapshots_eq_ok.2 ⟨h.nonempty, rfl, hsame⟩⟩

end RuleBook

-- ================================================================ refusal

namespace ContributionRate

theorem refuses_check (seen : List String) (r : ContributionRate) :
    Refuses (r.check seen) := by
  refine .refuse (.refuse (.refuse (.refuse ?_)))
  split
  · exact .refuse .passed
  · exact .passed

theorem refuses_checkEach (seen : List String)
    (rates : List ContributionRate) : Refuses (checkEach seen rates) := by
  induction rates generalizing seen with
  | nil => exact .passed
  | cons r rest ih => exact (refuses_check seen r).andThen (ih _)

theorem refuses_checkAll {rates : List ContributionRate} {all : Decimal}
    (hsum : Decimal.sum (rates.map (·.employeeRate)) = .ok all) :
    Refuses (checkAll rates) := by
  refine (refuses_checkEach [] rates).andThen ?_
  rw [hsum]
  exact .refuse .passed

end ContributionRate

theorem OvertimeRule.refuses_checkEach (seen : List Category)
    (rules : List OvertimeRule) : Refuses (checkEach seen rules) := by
  induction rules generalizing seen with
  | nil => exact .passed
  | cons r rest ih =>
      refine .refuse (.refuse ?_)
      split
      · exact .refuse (ih _)
      · exact ih _

theorem Snapshot.refuses_check {s : Snapshot} {all : Decimal}
    (hsum : Decimal.sum (s.contributions.map (·.employeeRate)) = .ok all) :
    Refuses s.check := by
  have hpositive (divisor : Divisor) (value : Decimal) :
      Refuses (checkPositive divisor value) := .refuse .passed
  have hlimits : Refuses s.checkLimits :=
    .refuse (.refuse (.refuse .passed))
  exact (hpositive _ _).andThen <| (hpositive _ _).andThen <|
    (hpositive _ _).andThen <| hlimits.andThen <|
    (ContributionRate.refuses_checkAll hsum).andThen <|
    OvertimeRule.refuses_checkEach [] s.overtime

namespace RuleBook

variable {l : List Snapshot} {j : Jurisdiction}

theorem refuses_checkEach (hsums : ∀ s ∈ l, ∃ all,
    Decimal.sum (s.contributions.map (·.employeeRate)) = .ok all) :
    Refuses (checkEach l) := by
  induction l with
  | nil => exact .passed
  | cons s rest ih =>
      obtain ⟨⟨all, hall⟩, hrest⟩ := List.forall_mem_cons.1 hsums
      exact (Snapshot.refuses_check hall).andThen (ih hrest)

theorem namesDefect_of_ofSnapshots (hsums : ∀ s ∈ l, ∃ all,
    Decimal.sum (s.contributions.map (·.employeeRate)) = .ok all)
    {f : Failure} (h : ofSnapshots j l = .error f) : f.NamesDefect := by
  unfold ofSnapshots at h
  split at h
  · cases h
    exact ⟨_, rfl⟩
  · split at h
    · rename_i hcheck
      cases h
      have hrefused := refuses_checkEach hsums
      rw [hcheck] at hrefused
      exact hrefused
    · split at h
      · cases h
        exact ⟨_, rfl⟩
      · cases h

/-- A list of snapshots makes a book exactly where it is well formed.
Any other is refused for a defect of its tables, unless rates were too
many to be summed up. -/
theorem ofSnapshots_accepts (j : Jurisdiction) (l : List Snapshot) :
    ((∃ book, ofSnapshots j l = .ok book) ↔ WellFormed l)
      ∧ ((∀ s ∈ l, ∃ all,
          Decimal.sum (s.contributions.map (·.employeeRate)) = .ok all) →
        ∀ f, ofSnapshots j l = .error f →
          ∃ defect, f = .malformed defect) := by
  refine ⟨exists_ofSnapshots_iff, fun hsums f h => ?_⟩
  exact namesDefect_of_ofSnapshots hsums h

/-- The rules of Senegal and their revision make a book. Given twice,
the rules are refused for a defect. -/
theorem ofSnapshots_accepts_senegal :
    WellFormed [Senegal.revision, Senegal.snapshot]
      ∧ ∃ f defect, ofSnapshots Senegal.jurisdiction
          [Senegal.snapshot, Senegal.snapshot] = .error f
        ∧ f = .malformed defect := by
  have hsum : (Decimal.sum (Senegal.snapshot.contributions.map
      (·.employeeRate))).toOption.any (fun _ => true) = true := by
    decide +kernel
  obtain ⟨all, hall, -⟩ := exists_ok_of_any hsum
  have hsums : ∀ s ∈ [Senegal.snapshot, Senegal.snapshot], ∃ all,
      Decimal.sum (s.contributions.map (·.employeeRate)) = .ok all := by
    intro s hs
    rw [List.mem_pair, or_self] at hs
    exact ⟨all, hs ▸ hall⟩
  refine ⟨(ofSnapshots_accepts _ _).1.1 ⟨Senegal.revisedBook,
    ofSnapshots_eq_ok.2 ⟨nofun, rfl, .swap _ _ _⟩⟩, ?_⟩
  cases h : ofSnapshots Senegal.jurisdiction
      [Senegal.snapshot, Senegal.snapshot] with
  | ok book =>
      have hdates := (exists_ofSnapshots_iff.1 ⟨book, h⟩).dates
      exact absurd hdates (by decide)
  | error f =>
      obtain ⟨defect, hdefect⟩ := (ofSnapshots_accepts _ _).2 hsums f h
      exact ⟨f, defect, rfl, hdefect⟩

end RuleBook

end Payroll
