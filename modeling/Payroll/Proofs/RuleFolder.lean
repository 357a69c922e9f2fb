/-
Loading a rule folder. A folder is loaded exactly where everything in it
is in order: the text about the jurisdiction is decoded, there is a rule
file, each rule file holds a snapshot, of the date that the file is
named for if it is named for one, and the snapshots make a book. The
book then holds the snapshot of each rule file, and nothing else.

The decoders are arbitrary here. What is said holds of any format that
the files are written in.

# The order of the listing

Files are read in the order of the listing and reading stops at the
first that is not in order. Where all are, a listing in another order
gives the same snapshots in another order, and a book forgets the order
of its snapshots (`ofSnapshots_perm`). So whether a folder is loaded,
and as which book, does not depend on the listing; which of two faulty
files is reported does.
-/
import Payroll.Proofs.Acceptance
import Payroll.Proofs.Text.Calendar
import Payroll.Rules.Folder

namespace Payroll

/-- A book forgets the order in which its snapshots were given. -/
theorem RuleBook.ofSnapshots_perm {j : Jurisdiction}
    {l l' : List Snapshot} {book : RuleBook} (h : l.Perm l')
    (hbook : ofSnapshots j l = .ok book) :
    ofSnapshots j l' = .ok book := by
  obtain ⟨hne, hjurisdiction, hperm⟩ := ofSnapshots_eq_ok.1 hbook
  refine ofSnapshots_eq_ok.2 ⟨?_, hjurisdiction, hperm.trans h⟩
  rintro rfl
  exact hne h.eq_nil

namespace RuleFolder

variable {decodeJurisdiction : String → Read Jurisdiction}
  {decode : String → Read Snapshot} {folder : RuleFolder}
  {files files' : List (String × String)} {f : String × String}
  {s : Snapshot} {book : RuleBook} {path text : String}

-- ================================================================== names

/-- A rule file and its stem, which is what stands before `.yaml`. -/
structure RuleFile (name stem : String) : Prop where
  stem_ne : stem ≠ ""
  name_eq : name = stem ++ ".yaml"

/-- Names are split at their last dot, so the stem may have dots. -/
theorem splitName_eq_yaml {name stem : String} :
    splitName name = (stem, some "yaml") ↔ RuleFile name stem := by
  unfold splitName
  simp only
  constructor
  · intro h
    have hsplit := List.takeWhile_append_dropWhile (p := (· != '.'))
      (l := name.toList.reverse)
    have hhead := List.head?_dropWhile_not (· != '.') name.toList.reverse
    split at h
    · rename_i dot c rest hrest
      rw [hrest] at hsplit hhead
      obtain rfl : dot = '.' := by simpa using hhead
      obtain ⟨rfl, hyaml⟩ := Prod.mk.inj h
      have hbehind := congrArg String.toList (Option.some_inj.1 hyaml)
      rw [String.toList_ofList, List.reverse_eq_iff] at hbehind
      rw [hbehind] at hsplit
      refine ⟨?_, String.toList_inj.1 ?_⟩
      · intro hempty
        have hnil := congrArg String.toList hempty
        simp at hnil
      · rw [← List.reverse_inj, ← hsplit]
        simp
    · cases h
  · rintro ⟨hne, rfl⟩
    -- names are read from their end, up to the first dot there
    have hreversed : (stem ++ ".yaml").toList.reverse
        = ['l', 'm', 'a', 'y'] ++ '.' :: stem.toList.reverse := by
      simp
    have hyaml : ∀ c ∈ ['l', 'm', 'a', 'y'], (c != '.') = true :=
      List.all_eq_true.1 (by decide)
    have hdot : ∀ c ∈ ('.' :: stem.toList.reverse).head?,
        (c != '.') = false := by
      rintro c ⟨⟩
      decide
    have hstem : stem.toList.reverse ≠ [] := by
      rw [ne_eq, List.reverse_eq_nil_iff, ← String.toList_empty,
        String.toList_inj]
      exact hne
    obtain ⟨c, rest, hrest⟩ := List.exists_cons_of_ne_nil hstem
    rw [hreversed, Text.takeWhile_run hyaml hdot,
      Text.dropWhile_run hyaml hdot, hrest]
    simp only [← hrest, List.reverse_reverse, String.ofList_toList]
    rfl

theorem isRuleFile_iff {name : String} :
    isRuleFile name = true ↔ ∃ stem, RuleFile name stem := by
  unfold isRuleFile
  rw [beq_iff_eq]
  constructor
  · intro h
    exact ⟨_, splitName_eq_yaml.1 (Prod.ext rfl h)⟩
  · rintro ⟨stem, h⟩
    rw [splitName_eq_yaml.2 h]

/-- The rule files of a listing. -/
def ruleFiles (files : List (String × String)) : List (String × String) :=
  files.filter (isRuleFile ·.1)

theorem mem_ruleFiles :
    f ∈ ruleFiles files ↔ f ∈ files ∧ ∃ stem, RuleFile f.1 stem := by
  rw [ruleFiles, List.mem_filter, isRuleFile_iff]

-- ============================================================== snapshots

/-- What the rule files of a listing hold, as far as they are
decoded. -/
def snapshotsOf (decode : String → Read Snapshot)
    (files : List (String × String)) : List Snapshot :=
  (ruleFiles files).filterMap fun f => (decode f.2).toOption

/-- Where every entry comes to something, nothing is left out. -/
theorem forall₂_iff_filterMap {ε α β : Type} {R : α → β → Prop}
    {x : α → Except ε β} (hx : ∀ a b, R a b → x a = .ok b) {l : List α}
    {l' : List β} : List.Forall₂ R l l'
      ↔ (∀ a ∈ l, ∃ b, R a b)
        ∧ l.filterMap (fun a => (x a).toOption) = l' := by
  have hvalue : ∀ a b, R a b → (x a).toOption = some b := by
    intro a b hb
    rw [hx a b hb]
    rfl
  induction l generalizing l' with
  | nil =>
      rw [List.forall₂_nil_left_iff, List.filterMap_nil, eq_comm]
      exact (and_iff_right nofun).symm
  | cons a l ih =>
      rw [List.forall₂_cons_left_iff, List.forall_mem_cons]
      constructor
      · rintro ⟨b, l', hb, hl', rfl⟩
        obtain ⟨hall, rfl⟩ := ih.1 hl'
        exact ⟨⟨⟨b, hb⟩, hall⟩, List.filterMap_cons_some (hvalue a b hb)⟩
      · rintro ⟨⟨⟨b, hb⟩, hall⟩, rfl⟩
        exact ⟨b, _, hb, ih.2 ⟨hall, rfl⟩,
          List.filterMap_cons_some (hvalue a b hb)⟩

/-- A file holds a snapshot: it is decoded to it, and the name is of no
other date. -/
structure Holds (decode : String → Read Snapshot) (f : String × String)
    (s : Snapshot) : Prop where
  decoded : decode f.2 = .ok s
  dated : ∀ date, Date.ofStem? (splitName f.1).1 = some date →
    date = s.effectiveDate

theorem decoded_eq_ok {α : Type} {path : String} {x : Read α} {a : α} :
    decoded path x = .ok a ↔ x = .ok a := by
  cases x with
  | ok b => simp only [decoded, Except.ok.injEq]
  | error e => cases e <;> exact iff_of_false nofun nofun

theorem loadFile_eq_ok :
    loadFile decode path f.1 f.2 = .ok s ↔ Holds decode f s := by
  unfold loadFile
  simp only [bind_eq_ok, decoded_eq_ok]
  constructor
  · rintro ⟨s', hdecoded, h⟩
    split at h
    · rename_i named hnamed
      split at h
      · rename_i hdate
        cases h
        refine ⟨hdecoded, fun date hname => ?_⟩
        rw [← hdate]
        exact Option.some_inj.1 (hname.symm.trans hnamed)
      · cases h
    · rename_i hnone
      cases h
      refine ⟨hdecoded, fun date hname => ?_⟩
      rw [hnone] at hname
      cases hname
  · rintro ⟨hdecoded, hdated⟩
    refine ⟨s, hdecoded, ?_⟩
    split
    · rename_i named hnamed
      rw [if_pos (hdated named hnamed)]
    · rfl

/-- The folder is read in order: the jurisdiction, then each rule file,
then the book of what they hold. -/
theorem load_eq_ok :
    load decodeJurisdiction decode ⟨path, some text, some files⟩ = .ok book
      ↔ ∃ j snapshots, decodeJurisdiction text = .ok j
        ∧ List.Forall₂ (Holds decode) (ruleFiles files) snapshots
        ∧ RuleBook.ofSnapshots j snapshots = .ok book := by
  unfold load
  simp only [bind_eq_ok, decoded_eq_ok, mapM_eq_ok, loadFile_eq_ok,
    ite_error_eq_ok]
  constructor
  · rintro ⟨j, hj, snapshots, hsnapshots, -, hbook⟩
    exact ⟨j, snapshots, hj, hsnapshots, hbook⟩
  · rintro ⟨j, snapshots, hj, hsnapshots, hbook⟩
    refine ⟨j, hj, snapshots, hsnapshots, ?_, hbook⟩
    rw [List.isEmpty_iff]
    exact (RuleBook.ofSnapshots_eq_ok.1 hbook).1

-- ================================================================ loading

/-- A folder in which everything is in order. -/
structure Loadable (decodeJurisdiction : String → Read Jurisdiction)
    (decode : String → Read Snapshot) (text : String)
    (files : List (String × String)) : Prop where
  jurisdiction : ∃ j, decodeJurisdiction text = .ok j
  rules : ∃ f ∈ files, ∃ stem, RuleFile f.1 stem
  /-- Every rule file is decoded. -/
  decoded : ∀ f ∈ files, ∀ stem, RuleFile f.1 stem →
    ∃ s, decode f.2 = .ok s
  /-- A rule file that is named for a date holds the rules of it. -/
  dated : ∀ f ∈ files, ∀ stem date s, RuleFile f.1 stem →
    Date.ofStem? stem = some date → decode f.2 = .ok s →
      s.effectiveDate = date
  accepted : ∀ j, decodeJurisdiction text = .ok j →
    ∃ book, RuleBook.ofSnapshots j (snapshotsOf decode files) = .ok book

/-- The rule files hold what they are decoded to, or nothing. -/
theorem forall₂_holds_iff {snapshots : List Snapshot} :
    List.Forall₂ (Holds decode) (ruleFiles files) snapshots
      ↔ (∀ f ∈ ruleFiles files, ∃ s, Holds decode f s)
        ∧ snapshotsOf decode files = snapshots :=
  forall₂_iff_filterMap fun _ _ hs => hs.decoded

/-- Where everything is in order, each rule file holds what it is decoded
to. -/
theorem Loadable.forall₂_holds
    (h : Loadable decodeJurisdiction decode text files) :
    List.Forall₂ (Holds decode) (ruleFiles files)
      (snapshotsOf decode files) := by
  refine forall₂_holds_iff.2 ⟨fun f hf => ?_, rfl⟩
  obtain ⟨hmem, stem, hstem⟩ := mem_ruleFiles.1 hf
  obtain ⟨s, hs⟩ := h.decoded f hmem stem hstem
  refine ⟨s, hs, fun date hdate => ?_⟩
  rw [splitName_eq_yaml.2 hstem] at hdate
  exact (h.dated f hmem stem date s hstem hdate hs).symm

theorem Loadable.exists_load
    (h : Loadable decodeJurisdiction decode text files) (path : String) :
    ∃ book, load decodeJurisdiction decode ⟨path, some text, some files⟩
      = .ok book := by
  obtain ⟨j, hj⟩ := h.jurisdiction
  obtain ⟨book, hbook⟩ := h.accepted j hj
  exact ⟨book, load_eq_ok.2 ⟨j, _, hj, h.forall₂_holds, hbook⟩⟩

theorem loadable_of_load
    (h : load decodeJurisdiction decode ⟨path, some text, some files⟩
      = .ok book) : Loadable decodeJurisdiction decode text files := by
  obtain ⟨j, snapshots, hj, hholds, hbook⟩ := load_eq_ok.1 h
  obtain ⟨hall, rfl⟩ := forall₂_holds_iff.1 hholds
  refine {
    jurisdiction := ⟨j, hj⟩
    rules := ?_
    decoded := fun f hf stem hstem => ?_
    dated := fun f hf stem date s hstem hdate hs => ?_
    accepted := fun j' hj' => ?_ }
  · have hne := (RuleBook.ofSnapshots_eq_ok.1 hbook).1
    cases hfiles : ruleFiles files with
    | nil =>
        rw [hfiles, List.forall₂_nil_left_iff] at hholds
        exact absurd hholds hne
    | cons f rest =>
        have hf : f ∈ ruleFiles files := hfiles ▸ List.mem_cons_self
        exact ⟨f, mem_ruleFiles.1 hf⟩
  · obtain ⟨s, hs⟩ := hall f (mem_ruleFiles.2 ⟨hf, stem, hstem⟩)
    exact ⟨s, hs.decoded⟩
  · obtain ⟨s', hs'⟩ := hall f (mem_ruleFiles.2 ⟨hf, stem, hstem⟩)
    have hsame : s' = s := Except.ok.inj (hs'.decoded.symm.trans hs)
    have hname := splitName_eq_yaml.2 hstem
    rw [← hsame]
    exact (hs'.dated date (by rw [hname]; exact hdate)).symm
  · have hsame : j' = j := Except.ok.inj (hj'.symm.trans hj)
    exact ⟨book, hsame ▸ hbook⟩

/-- A listing in another order gives the same book. -/
theorem load_perm (h : files'.Perm files)
    (hload : load decodeJurisdiction decode ⟨path, some text, some files⟩
      = .ok book) :
    load decodeJurisdiction decode ⟨path, some text, some files'⟩
      = .ok book := by
  obtain ⟨j, snapshots, hj, hholds, hbook⟩ := load_eq_ok.1 hload
  have hfiles : (ruleFiles files').Perm (ruleFiles files) := h.filter _
  -- the snapshots go where their files go
  obtain ⟨snapshots', hholds', hperm⟩ :=
    List.perm_comp_forall₂ hfiles hholds
  exact load_eq_ok.2 ⟨j, snapshots', hj, hholds',
    RuleBook.ofSnapshots_perm hperm.symm hbook⟩

/-- A folder is loaded exactly where everything in it is in order. Its
book has the jurisdiction of the folder and one snapshot for each rule
file, in the order of their dates; and however the files are listed, it
is loaded as the same book or not at all. -/
theorem load_complete
    (decodeJurisdiction : String → Read Jurisdiction)
    (decode : String → Read Snapshot) (path text : String)
    (files : List (String × String)) :
    ((∃ book, load decodeJurisdiction decode
        ⟨path, some text, some files⟩ = .ok book)
      ↔ Loadable decodeJurisdiction decode text files)
    ∧ (∀ book, load decodeJurisdiction decode
        ⟨path, some text, some files⟩ = .ok book →
      decodeJurisdiction text = .ok book.jurisdiction
      ∧ List.Forall₂ (fun f s => decode f.2 = .ok s) (ruleFiles files)
        (snapshotsOf decode files)
      ∧ book.snapshots.Perm (snapshotsOf decode files)
      ∧ book.snapshots.Pairwise (·.effectiveDate < ·.effectiveDate))
    ∧ ∀ files', files'.Perm files → ∀ book,
      (load decodeJurisdiction decode ⟨path, some text, some files'⟩
          = .ok book
        ↔ load decodeJurisdiction decode ⟨path, some text, some files⟩
          = .ok book) := by
  refine ⟨⟨fun ⟨book, h⟩ => loadable_of_load h, fun h =>
    h.exists_load path⟩, fun book h => ?_, fun files' hperm book =>
      ⟨load_perm hperm.symm, load_perm hperm⟩⟩
  obtain ⟨j, snapshots, hj, hholds, hbook⟩ := load_eq_ok.1 h
  obtain ⟨-, rfl, hsame⟩ := RuleBook.ofSnapshots_eq_ok.1 hbook
  rw [(forall₂_holds_iff.1 hholds).2]
  exact ⟨hj, hholds.imp fun _ _ hs => hs.decoded, hsame, book.rising⟩

/-- A jurisdiction and the rules of one year, written out. -/
def plainJurisdiction : String :=
  "code: SN\nname: Senegal\ncurrency: XOF\n"

def plainRules : String :=
  "effective_date: 2024-01-01\nminimum_monthly_wage: 0\n"
    ++ "standard_monthly_hours: 8\nworking_days_per_month: 1\n"
    ++ "standard_daily_hours: 8\n"
    ++ "income_tax:\n  brackets:\n  - min_income: 0\n    rate: 0\n"
    ++ "contributions: []\novertime: []\n"

/-- The rules, and a note beside them that is not to be read. -/
def plainFiles : List (String × String) :=
  [("notes.txt", "[see"), ("2024-01-01.yaml", plainRules)]

/-- The folder is loaded, whichever of the two is listed first. -/
theorem load_complete_plain :
    plainFiles.reverse.Perm plainFiles
      ∧ ∃ book, loadYaml ⟨"rules", some plainJurisdiction, some plainFiles⟩
          = .ok book
        ∧ loadYaml ⟨"rules", some plainJurisdiction,
          some plainFiles.reverse⟩ = .ok book
        ∧ book.snapshots.length = 1
        ∧ Loadable (fromYaml Jurisdiction.ofDocument)
          (fromYaml Snapshot.ofDocument) plainJurisdiction plainFiles := by
  have hload : (loadYaml ⟨"rules", some plainJurisdiction,
      some plainFiles⟩).toOption.any (·.snapshots.length = 1) = true := by
    decide +kernel
  obtain ⟨book, hbook, hlength⟩ := exists_ok_of_any hload
  obtain ⟨hiff, -, hperm⟩ := load_complete (fromYaml Jurisdiction.ofDocument)
    (fromYaml Snapshot.ofDocument) "rules" plainJurisdiction plainFiles
  have hreverse := List.reverse_perm plainFiles
  exact ⟨hreverse, book, hbook, (hperm _ hreverse book).2 hbook,
    of_decide_eq_true hlength, hiff.1 ⟨book, hbook⟩⟩

end RuleFolder

end Payroll
