/-
Rule books: the snapshots of one jurisdiction, oldest first, no two of
one date. A book answers which rules are in force on a day: those of
the last snapshot that starts on or before it.

`ofSnapshots` takes the snapshots in any order. It sorts them, and what
it then has to refuse are neighbours of one date; sorted and without
such neighbours, the dates rise strictly (`rising_of_firstClash`).
-/
import Payroll.Calendar.Period
import Payroll.Rules.Snapshot

namespace Payroll

/-- What a jurisdiction is and which currency its ledger keeps. -/
structure Jurisdiction where
  code : String
  name : String
  currency : String
  /-- The decimal places of the currency. -/
  currencyScale : Nat
  /-- Where the rules come from. -/
  sourceUrl : Option String
deriving DecidableEq

/-- A jurisdiction and its snapshots, oldest first. -/
structure RuleBook where
  jurisdiction : Jurisdiction
  snapshots : List Snapshot
  rising : snapshots.Pairwise (·.effectiveDate < ·.effectiveDate)
  checked : ∀ s ∈ snapshots, s.check = .ok ()

namespace RuleBook

/-- The date that two neighbours share, if any do. -/
def firstClash : List Snapshot → Option Date
  | a :: b :: rest =>
    if a.effectiveDate = b.effectiveDate then some a.effectiveDate
    else firstClash (b :: rest)
  | _ => none

/-- Snapshots in the order of their dates. -/
def sortByDate (snapshots : List Snapshot) : List Snapshot :=
  snapshots.mergeSort fun a b => decide (a.effectiveDate ≤ b.effectiveDate)

theorem pairwise_sortByDate (snapshots : List Snapshot) :
    (sortByDate snapshots).Pairwise (·.effectiveDate ≤ ·.effectiveDate) := by
  have h : (sortByDate snapshots).Pairwise
      fun a b => decide (a.effectiveDate ≤ b.effectiveDate) = true :=
    List.pairwise_mergeSort
      (fun a b c h₁ h₂ => by
        simp only [decide_eq_true_eq] at *
        exact Date.le_trans h₁ h₂)
      (fun a b => by
        simpa using Date.le_total a.effectiveDate b.effectiveDate)
      snapshots
  exact h.imp (by simp)

/-- Sorted snapshots without neighbours of one date rise strictly. -/
theorem rising_of_firstClash {l : List Snapshot}
    (hsorted : l.Pairwise (·.effectiveDate ≤ ·.effectiveDate))
    (hclash : firstClash l = none) :
    l.Pairwise (·.effectiveDate < ·.effectiveDate) := by
  induction l with
  | nil => exact .nil
  | cons a rest ih =>
    cases rest with
    | nil => simp
    | cons b rest =>
      unfold firstClash at hclash
      split at hclash
      · cases hclash
      · rename_i hne
        obtain ⟨hhead, htail⟩ := List.pairwise_cons.1 hsorted
        have htail' := ih htail hclash
        refine List.pairwise_cons.2 ⟨fun c hc => ?_, htail'⟩
        have hab := Date.lt_of_le_of_ne (hhead b (by simp)) hne
        rcases List.mem_cons.1 hc with rfl | hc
        · exact hab
        · have hbc := (List.pairwise_cons.1 htail').1 c hc
          rw [Date.lt_iff] at *
          omega

/-- Checks snapshots one after the other. -/
def checkEach : List Snapshot → Except Failure Unit
  | [] => .ok ()
  | s :: rest => do
    s.check
    checkEach rest

theorem check_of_checkEach {l : List Snapshot} (h : checkEach l = .ok ())
    {s : Snapshot} (hs : s ∈ l) : s.check = .ok () := by
  induction l with
  | nil => cases hs
  | cons a rest ih =>
    unfold checkEach at h
    cases ha : a.check with
    | error e => simp [ha, bind, Except.bind] at h
    | ok u =>
      rw [ha] at h
      rcases List.mem_cons.1 hs with rfl | hs
      · exact ha
      · exact ih h hs

/-- The book of a jurisdiction and its snapshots, given in any order.
Every snapshot is checked before dates are compared. -/
def ofSnapshots (jurisdiction : Jurisdiction)
    (snapshots : List Snapshot) : Except Failure RuleBook :=
  if snapshots.isEmpty then .error (.malformed .noSnapshots)
  else
    match hcheck : checkEach snapshots with
    | .error e => .error e
    | .ok () =>
      match hclash : firstClash (sortByDate snapshots) with
      | some date => .error (.malformed (.repeatedDate date))
      | none =>
        .ok
          { jurisdiction
            snapshots := sortByDate snapshots
            rising := rising_of_firstClash (pairwise_sortByDate _) hclash
            checked := fun _ hs => check_of_checkEach hcheck
              ((List.mergeSort_perm _ _).mem_iff.1 hs) }

/-- The rounding of the ledger currency. -/
def rounding (book : RuleBook) : Rounding :=
  { places := book.jurisdiction.currencyScale }

/-- The rules in force on a date. -/
def snapshotOn (book : RuleBook) (date : Date) : Except Error Snapshot :=
  match book.snapshots.reverse.find?
      fun s => decide (s.effectiveDate ≤ date) with
  | some s => .ok s
  | none => .error (.rulesNotFound date)

/-- The rules of a period: those in force on its first day. -/
def snapshotFor (book : RuleBook) (period : Period) :
    Except Error Snapshot :=
  book.snapshotOn period.firstDay

end RuleBook

end Payroll
