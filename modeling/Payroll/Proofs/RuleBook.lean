/-
Which law a rule book answers with. The snapshot in force on a date is
the one that starts on or before it and that every other such snapshot
is older than; a list has at most one, and whether a snapshot is the one
depends on what the list holds, not on its order.

A book is accepted exactly when its snapshots, in the one order that
rises, are those of the list, so the order in which they were given is
forgotten (`ofSnapshots_eq_ok`). The search from the end then finds the
snapshot in force (`snapshotOn_eq_ok`) or nothing where all start later
(`snapshotOn_eq_error`).

A snapshot that starts after a date is not in force on it and changes
nothing about which one is. A period asks for its first day only, so the
laws to come leave it alone, and with the rules and the currency the
whole calculation is the same.
-/
import Mathlib.Data.List.Nodup
import Payroll.Pipeline
import Payroll.Rules.Senegal

namespace Payroll

-- ============================================================== the order

namespace Date

theorem lt_irrefl (a : Date) : ¬a < a := by
  rw [lt_iff]
  omega

theorem lt_asymm {a b : Date} (h : a < b) : ¬b < a := by
  rw [lt_iff] at *
  omega

theorem le_of_lt {a b : Date} (h : a < b) : a ≤ b := by
  rw [lt_iff] at h
  rw [le_iff]
  omega

theorem not_le {a b : Date} : ¬a ≤ b ↔ b < a := by
  rw [le_iff, lt_iff]
  omega

theorem ne_of_lt {a b : Date} (h : a < b) : a ≠ b := by
  rintro rfl
  exact lt_irrefl a h

theorem le_antisymm {a b : Date} (hab : a ≤ b) (hba : b ≤ a) : a = b := by
  by_cases h : a = b
  · exact h
  · exact absurd hba (not_le.2 (lt_of_le_of_ne hab h))

end Date

namespace RuleBook

variable {l l' more : List Snapshot} {date : Date} {s s' : Snapshot}

-- =============================================================== in force

/-- The snapshot of a list that is in force on a date: of those that
have started, the last to start. -/
structure InForce (l : List Snapshot) (date : Date) (s : Snapshot) :
    Prop where
  mem : s ∈ l
  started : s.effectiveDate ≤ date
  latest : ∀ t ∈ l, t.effectiveDate ≤ date →
    t = s ∨ t.effectiveDate < s.effectiveDate

/-- Two laws are never in force at once. -/
theorem InForce.unique (hs : InForce l date s) (hs' : InForce l date s') :
    s = s' := by
  rcases hs'.latest s hs.mem hs.started with h | hlt
  · exact h
  · rcases hs.latest s' hs'.mem hs'.started with h | hlt'
    · exact h.symm
    · exact absurd hlt' (Date.lt_asymm hlt)

/-- What is in force depends on which snapshots of the list have
started. -/
theorem InForce.congr (hs : InForce l date s)
    (h : ∀ t, t.effectiveDate ≤ date → (t ∈ l ↔ t ∈ l')) :
    InForce l' date s where
  mem := (h s hs.started).1 hs.mem
  started := hs.started
  latest := fun t ht hle => hs.latest t ((h t hle).2 ht) hle

-- ========================================================== construction

theorem checkEach_eq_ok (h : ∀ s ∈ l, s.check = .ok ()) :
    checkEach l = .ok () := by
  induction l with
  | nil => rfl
  | cons a rest ih =>
      unfold checkEach
      rw [h a List.mem_cons_self]
      exact ih fun s hs => h s (List.mem_cons_of_mem a hs)

/-- Dates that rise do not clash. -/
theorem firstClash_eq_none
    (h : l.Pairwise (·.effectiveDate < ·.effectiveDate)) :
    firstClash l = none := by
  induction l with
  | nil => rfl
  | cons a rest ih =>
      cases rest with
      | nil => rfl
      | cons b rest =>
          obtain ⟨hhead, htail⟩ := List.pairwise_cons.1 h
          unfold firstClash
          rw [if_neg (Date.ne_of_lt (hhead b List.mem_cons_self))]
          exact ih htail

/-- Snapshots that rise are the sorted form of each of their orders. -/
theorem sortByDate_eq
    (hrising : l.Pairwise (·.effectiveDate < ·.effectiveDate))
    (hperm : l.Perm l') : sortByDate l' = l := by
  have hdates : (l.map (·.effectiveDate)).Nodup :=
    List.pairwise_map.2 (hrising.imp Date.ne_of_lt)
  have hsame : (sortByDate l').Perm l :=
    (List.mergeSort_perm _ _).trans hperm.symm
  refine hsame.eq_of_pairwise (fun a b ha hb hab hba => ?_)
    (pairwise_sortByDate l') (hrising.imp Date.le_of_lt)
  exact List.inj_on_of_nodup_map hdates (hsame.mem_iff.1 ha) hb
    (Date.le_antisymm hab hba)

/-- A list makes the book that holds its snapshots. -/
theorem ofSnapshots_eq_ok {j : Jurisdiction} {book : RuleBook} :
    ofSnapshots j l = .ok book
      ↔ l ≠ [] ∧ book.jurisdiction = j ∧ book.snapshots.Perm l := by
  constructor
  · intro h
    unfold ofSnapshots at h
    split at h
    · cases h
    · rename_i hne
      split at h
      · cases h
      · split at h
        · cases h
        · cases h
          exact ⟨by simpa using hne, rfl, List.mergeSort_perm _ _⟩
  · rintro ⟨hne, rfl, hperm⟩
    have hsort := sortByDate_eq book.rising hperm
    have hchecked : checkEach l = .ok () :=
      checkEach_eq_ok fun s hs => book.checked s (hperm.mem_iff.2 hs)
    have hclash : firstClash (sortByDate l) = none := by
      rw [hsort]
      exact firstClash_eq_none book.rising
    unfold ofSnapshots
    rw [if_neg (by simpa using hne)]
    split
    · rename_i herror
      rw [hchecked] at herror
      cases herror
    · split
      · rename_i hsome
        rw [hclash] at hsome
        cases hsome
      · cases book
        simp only [Except.ok.injEq, RuleBook.mk.injEq, true_and]
        exact hsort

-- ================================================================ search

variable {book : RuleBook}

/-- The search finds the snapshot in force. -/
theorem inForce_of_snapshotOn (h : book.snapshotOn date = .ok s) :
    InForce book.snapshots date s := by
  unfold snapshotOn at h
  split at h
  · rename_i found hfound
    cases h
    obtain ⟨hin, as, bs, hsplit, hafter⟩ :=
      List.find?_eq_some_iff_append.1 hfound
    have hsnapshots : book.snapshots = bs.reverse ++ s :: as.reverse := by
      rw [← List.reverse_reverse book.snapshots, hsplit]
      simp
    have hrising := book.rising
    rw [hsnapshots, List.pairwise_append] at hrising
    refine ⟨?_, of_decide_eq_true hin, fun t ht hle => ?_⟩
    · rw [hsnapshots]
      simp
    · rw [hsnapshots, List.mem_append, List.mem_cons] at ht
      rcases ht with ht | rfl | ht
      · exact .inr (hrising.2.2 t ht s List.mem_cons_self)
      · exact .inl rfl
      · have := hafter t (List.mem_reverse.1 ht)
        rw [decide_eq_true hle] at this
        cases this
  · cases h

/-- The search fails where every law is still to come. -/
theorem snapshotOn_eq_error {e : Error} :
    book.snapshotOn date = .error e ↔ e = .rulesNotFound date
      ∧ ∀ s ∈ book.snapshots, date < s.effectiveDate := by
  unfold snapshotOn
  split
  · rename_i found hfound
    refine ⟨nofun, fun ⟨_, hlater⟩ => ?_⟩
    have hmem := List.mem_reverse.1 (List.mem_of_find?_eq_some hfound)
    have hle := List.find?_some hfound
    exact absurd (of_decide_eq_true hle) (Date.not_le.2 (hlater found hmem))
  · rename_i hnone
    rw [List.find?_eq_none] at hnone
    refine ⟨?_, fun ⟨he, _⟩ => by rw [he]⟩
    rintro ⟨⟩
    refine ⟨rfl, fun s hs => Date.not_le.1 ?_⟩
    simpa using hnone s (List.mem_reverse.2 hs)

theorem snapshotOn_eq_ok :
    book.snapshotOn date = .ok s ↔ InForce book.snapshots date s := by
  refine ⟨inForce_of_snapshotOn, fun hs => ?_⟩
  cases hfound : book.snapshotOn date with
  | ok found => rw [(inForce_of_snapshotOn hfound).unique hs]
  | error e =>
      have hlater := (snapshotOn_eq_error.1 hfound).2 s hs.mem
      exact absurd hs.started (Date.not_le.2 hlater)

/-- The rules of a period are those in force on its first day. -/
theorem snapshotFor_eq_ok {period : Period}
    (h : book.snapshotFor period = .ok s) :
    InForce book.snapshots period.firstDay s :=
  inForce_of_snapshotOn h

/-- Two books answer a date alike when they hold the same snapshots up
to that date. -/
theorem snapshotOn_congr {later : RuleBook}
    (h : ∀ t : Snapshot, t.effectiveDate ≤ date →
      (t ∈ book.snapshots ↔ t ∈ later.snapshots)) :
    later.snapshotOn date = book.snapshotOn date := by
  cases hs : book.snapshotOn date with
  | ok s => exact snapshotOn_eq_ok.2 ((snapshotOn_eq_ok.1 hs).congr h)
  | error e =>
      obtain ⟨he, hlater⟩ := snapshotOn_eq_error.1 hs
      refine snapshotOn_eq_error.2 ⟨he, fun t ht => Date.not_le.1 ?_⟩
      intro hle
      exact Date.not_le.2 (hlater t ((h t hle).2 ht)) hle

-- =============================================================== history

/-- A calculation looks at the snapshots up to the first day of its
period and at the places of the currency. -/
theorem calculate_congr {later : RuleBook} {r : Request}
    (hjurisdiction : later.jurisdiction = book.jurisdiction)
    (h : ∀ t : Snapshot, t.effectiveDate ≤ r.period.firstDay →
      (t ∈ book.snapshots ↔ t ∈ later.snapshots)) (asOf : Date) :
    calculate r later asOf = calculate r book asOf := by
  unfold calculate snapshotFor rounding
  rw [snapshotOn_congr h, hjurisdiction]

/-- A book forgets the order in which its snapshots were given, answers
each date with the one law in force on it, and pays a period the same
whatever laws are added that start after its first day. -/
theorem history_stable {j : Jurisdiction}
    (h : ofSnapshots j l = .ok book) :
    (∀ l', l'.Perm l → ofSnapshots j l' = .ok book)
      ∧ book.snapshots.Perm l
      ∧ book.snapshots.Pairwise (·.effectiveDate < ·.effectiveDate)
      ∧ (∀ date s, book.snapshotOn date = .ok s ↔ InForce l date s)
      ∧ (∀ date s s', InForce l date s → InForce l date s' → s = s')
      ∧ (∀ date e, book.snapshotOn date = .error e
        ↔ e = .rulesNotFound date ∧ ∀ s ∈ l, date < s.effectiveDate)
      ∧ ∀ more l' later, l'.Perm (l ++ more) →
        ofSnapshots j l' = .ok later → ∀ (r : Request) asOf,
          (∀ s ∈ more, r.period.firstDay < s.effectiveDate) →
            calculate r later asOf = calculate r book asOf := by
  obtain ⟨hne, hjurisdiction, hperm⟩ := ofSnapshots_eq_ok.1 h
  refine ⟨fun l' hl' => ?_, hperm, book.rising, fun date s => ?_,
    fun date s s' => InForce.unique, fun date e => ?_, ?_⟩
  · refine ofSnapshots_eq_ok.2 ⟨?_, hjurisdiction, hperm.trans hl'.symm⟩
    rintro rfl
    exact hne hl'.nil_eq.symm
  · rw [snapshotOn_eq_ok]
    exact ⟨fun hs => hs.congr fun t _ => hperm.mem_iff,
      fun hs => hs.congr fun t _ => hperm.mem_iff.symm⟩
  · simp only [snapshotOn_eq_error, hperm.mem_iff]
  · intro more l' later hl' hlater r asOf hmore
    obtain ⟨-, hsame, hperm'⟩ := ofSnapshots_eq_ok.1 hlater
    refine calculate_congr (hsame.trans hjurisdiction.symm)
      (fun t hle => ?_) asOf
    rw [hperm.mem_iff, hperm'.mem_iff, hl'.mem_iff, List.mem_append]
    refine ⟨.inl, fun ht => ht.resolve_right fun hin => ?_⟩
    exact Date.not_le.2 (hmore t hin) hle

end RuleBook

-- ============================================================ a revision

open RuleBook

/-- The rules of Senegal with a higher minimum wage, a year later. -/
def Senegal.revision : Snapshot :=
  { Senegal.snapshot with
    effectiveDate := (Period.of 2025 1).firstDay
    minimumWage := 70000 }

/-- The rule book once the revision is known. -/
def Senegal.revisedBook : RuleBook :=
  { jurisdiction := Senegal.jurisdiction
    snapshots := [Senegal.snapshot, Senegal.revision]
    rising := List.pairwise_pair.2 (by decide)
    checked := by
      intro s hs
      simp only [List.mem_cons, List.not_mem_nil, or_false] at hs
      rcases hs with rfl | rfl
      · exact Senegal.check_snapshot
      · decide +kernel }

/-- The revision does not touch what December is paid, and is the law
from January on. -/
theorem RuleBook.history_stable_revised :
    ofSnapshots Senegal.jurisdiction [Senegal.snapshot]
        = .ok Senegal.book
      ∧ ofSnapshots Senegal.jurisdiction
          [Senegal.revision, Senegal.snapshot] = .ok Senegal.revisedBook
      ∧ (∀ (r : Request) asOf, r.period = .of 2024 12 →
        calculate r Senegal.revisedBook asOf = calculate r Senegal.book asOf)
      ∧ Senegal.revisedBook.snapshotOn
        { year := 2025, month := 1, day := 1 } = .ok Senegal.revision := by
  have hbook : ofSnapshots Senegal.jurisdiction [Senegal.snapshot]
      = .ok Senegal.book :=
    ofSnapshots_eq_ok.2 ⟨nofun, rfl, .refl _⟩
  have hrevised : ofSnapshots Senegal.jurisdiction
      [Senegal.revision, Senegal.snapshot] = .ok Senegal.revisedBook :=
    ofSnapshots_eq_ok.2 ⟨nofun, rfl, .swap _ _ _⟩
  obtain ⟨-, -, -, -, -, -, hlater⟩ := history_stable hbook
  obtain ⟨-, -, -, hsearch, -⟩ := history_stable hrevised
  refine ⟨hbook, hrevised, fun r asOf hr => ?_, (hsearch _ _).2 ?_⟩
  · refine hlater [Senegal.revision] _ _ (.swap _ _ _) hrevised r asOf
      fun s hs => ?_
    rw [List.mem_singleton.1 hs, hr]
    decide
  · refine ⟨List.mem_cons_self, by decide, fun t ht _ => ?_⟩
    simp only [List.mem_cons, List.not_mem_nil, or_false] at ht
    rcases ht with rfl | rfl
    · exact .inl rfl
    · exact .inr (by decide)

end Payroll
