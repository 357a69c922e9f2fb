/-
What a list of entries becomes. Entries under distinct names keep all
of themselves when they are put in the order of their names, so totals
and look-ups may go back to the list. Values by category that come in
reporting order are given back as they came.

That keys are distinct is checked in passing, each against those before
it. Where none was seen before, none occurs twice (`Fresh`).
-/
import Payroll.Category
import Payroll.Named
import Mathlib.Data.List.Nodup
import Mathlib.Data.List.Perm.Basic

namespace Payroll

variable {α : Type}

/-- Where no two elements have one key, the first that is found under a
key is the only one. -/
theorem find?_key_eq_some {κ : Type} [DecidableEq κ] {key : α → κ}
    {l : List α} (h : (l.map key).Nodup) {k : κ} {a : α} :
    l.find? (key · == k) = some a ↔ a ∈ l ∧ key a = k := by
  constructor
  · intro ha
    exact ⟨List.mem_of_find?_eq_some ha, by simpa using List.find?_some ha⟩
  · rintro ⟨ha, rfl⟩
    obtain ⟨a', ha'⟩ : ∃ a', l.find? (key · == key a) = some a' := by
      rw [← Option.isSome_iff_exists, List.find?_isSome]
      exact ⟨a, ha, beq_self_eq_true _⟩
    have hkey : key a' = key a := by simpa using List.find?_some ha'
    rw [ha', List.inj_on_of_nodup_map h (List.mem_of_find?_eq_some ha') ha
      hkey]

/-- So it does not matter in which order they stand. -/
theorem find?_key_perm {κ : Type} [DecidableEq κ] {key : α → κ}
    {l l' : List α} (h : (l.map key).Nodup) (hperm : l.Perm l') (k : κ) :
    l.find? (key · == k) = l'.find? (key · == k) := by
  have h' : (l'.map key).Nodup := (hperm.map key).nodup_iff.1 h
  refine Option.ext fun a => ?_
  rw [find?_key_eq_some h, find?_key_eq_some h', hperm.mem_iff]

/-- Elements under keys of their own, none of which was seen before. -/
def Fresh {κ : Type} (key : α → κ) (seen : List κ) (l : List α) : Prop :=
  (l.map key).Nodup ∧ ∀ a ∈ l, key a ∉ seen

section Fresh

variable {κ : Type} {key : α → κ} {seen : List κ} {a : α} {l : List α}

theorem fresh_nil : Fresh key seen [] := ⟨.nil, nofun⟩

/-- Whoever remembers the keys behind him has only to look back. -/
theorem fresh_cons : Fresh key seen (a :: l)
    ↔ key a ∉ seen ∧ Fresh key (key a :: seen) l := by
  have hback : (∀ b ∈ l, key b ∉ key a :: seen)
      ↔ key a ∉ l.map key ∧ ∀ b ∈ l, key b ∉ seen := by
    simp only [List.mem_cons, not_or, List.mem_map, not_exists, not_and,
      forall_and]
  unfold Fresh
  rw [List.map_cons, List.nodup_cons, List.forall_mem_cons, hback]
  tauto

theorem fresh_iff_nodup : Fresh key [] l ↔ (l.map key).Nodup :=
  and_iff_left fun _ _ => List.not_mem_nil

end Fresh

namespace Named

theorem insertEntry_perm {name : String} {value : α}
    {l : List (String × α)} (h : ∀ e ∈ l, e.1 ≠ name) :
    (insertEntry name value l).Perm ((name, value) :: l) := by
  induction l with
  | nil => exact .refl _
  | cons e rest ih =>
      have hrest : ∀ e' ∈ rest, e'.1 ≠ name := fun e' he' =>
        h e' (List.mem_cons_of_mem e he')
      unfold insertEntry
      split
      · exact .refl _
      · split
        · exact ((ih hrest).cons e).trans (.swap _ _ _)
        · rename_i h₁ h₂
          have heq : e.1 = name :=
            String.le_antisymm (String.not_lt.1 h₁) (String.not_lt.1 h₂)
          exact absurd heq (h e List.mem_cons_self)

/-- Insertions under names that are new keep every entry. -/
theorem foldl_insert_perm {l : List (String × α)} {m : Named α}
    (hdistinct : (l.map (·.1)).Nodup)
    (hnew : ∀ e ∈ l, ∀ e' ∈ m.entries, e'.1 ≠ e.1) :
    (l.foldl (fun m e => m.insert e.1 e.2) m).entries.Perm
      (l ++ m.entries) := by
  induction l generalizing m with
  | nil => exact .refl _
  | cons e rest ih =>
      rw [List.map_cons, List.nodup_cons] at hdistinct
      obtain ⟨hhead, htail⟩ := hdistinct
      have hstep : (m.insert e.1 e.2).entries.Perm (e :: m.entries) :=
        insertEntry_perm (hnew e List.mem_cons_self)
      refine (ih htail fun e₁ he₁ e₂ he₂ => ?_).trans ?_
      · rcases List.mem_cons.1 (hstep.mem_iff.1 he₂) with rfl | he₂
        · intro heq
          exact hhead (heq ▸ List.mem_map_of_mem he₁)
        · exact hnew e₁ (List.mem_cons_of_mem e he₁) e₂ he₂
      · exact (hstep.append_left rest).trans List.perm_middle

/-- Entries under distinct names are all kept. -/
theorem entries_ofList_perm {l : List (String × α)}
    (h : (l.map (·.1)).Nodup) : (ofList l).entries.Perm l := by
  have := foldl_insert_perm (m := empty) h fun _ _ e' he' => by cases he'
  rwa [show (empty : Named α).entries = [] from rfl, List.append_nil]
    at this

/-- The order of the names leaves one way to put entries down. -/
theorem eq_of_entries_perm {m m' : Named α}
    (h : m.entries.Perm m'.entries) : m = m' := by
  have hentries : m.entries = m'.entries := by
    refine h.eq_of_pairwise ?_ m.rising m'.rising
    exact fun a b _ _ hab hba =>
      absurd (String.lt_trans hab hba) (String.lt_irrefl _)
  cases m
  cases m'
  simp only at hentries
  subst hentries
  rfl

/-- Entries under distinct names may come in any order. -/
theorem ofList_eq_of_perm {l l' : List (String × α)}
    (h : (l.map (·.1)).Nodup) (hperm : l.Perm l') :
    ofList l = ofList l' := by
  have h' : (l'.map (·.1)).Nodup := (hperm.map _).nodup_iff.1 h
  exact eq_of_entries_perm ((entries_ofList_perm h).trans
    (hperm.trans (entries_ofList_perm h').symm))

/-- A name is looked up among the entries. -/
theorem get?_eq_some_iff {m : Named α} {name : String} {value : α} :
    m.get? name = some value ↔ (name, value) ∈ m.entries := by
  obtain ⟨entries, hrising⟩ := m
  unfold get?
  simp only
  induction entries with
  | nil => simp
  | cons e rest ih =>
      obtain ⟨hhead, htail⟩ := List.pairwise_cons.1 hrising
      rw [List.find?_cons, List.mem_cons]
      by_cases h : e.1 = name
      · -- the names after `e` are larger, so `e` is the only entry
        have hlater : (name, value) ∉ rest := by
          intro hmem
          have hlt := hhead (name, value) hmem
          rw [h] at hlt
          exact String.lt_irrefl name hlt
        simp only [h, BEq.rfl, Option.map_some, Option.some.injEq,
          hlater, or_false]
        constructor
        · rintro rfl
          rw [← h]
        · intro heq
          rw [← heq]
      · have hne : (name, value) ≠ e := by
          rintro rfl
          exact h rfl
        simp only [beq_eq_false_iff_ne.2 h, hne, false_or]
        exact ih htail

theorem values_ofList_perm {l : List (String × α)}
    (h : (l.map (·.1)).Nodup) : (ofList l).values.Perm (l.map (·.2)) :=
  (entries_ofList_perm h).map _

theorem get?_ofList {l : List (String × α)} (h : (l.map (·.1)).Nodup)
    {name : String} {value : α} :
    (ofList l).get? name = some value ↔ (name, value) ∈ l := by
  rw [get?_eq_some_iff, (entries_ofList_perm h).mem_iff]

theorem get?_empty (name : String) : (empty : Named α).get? name = none :=
  rfl

/-- Where each value is made from its name, repeated names do no
harm. -/
theorem get?_foldl_insert (value : String → α) (l : List String)
    (m : Named α) (name : String) :
    (l.foldl (fun m n => m.insert n (value n)) m).get? name
      = if name ∈ l then some (value name) else m.get? name := by
  induction l generalizing m with
  | nil => simp
  | cons n rest ih =>
      rw [List.foldl_cons, ih, get?_insert]
      by_cases hmem : name ∈ rest
      · simp [hmem]
      · by_cases hname : name = n
        · simp [hname]
        · simp [hmem, hname]

theorem mem_names_iff {m : Named α} {name : String} :
    name ∈ m.names ↔ ∃ value, m.get? name = some value := by
  rw [names, List.mem_map]
  constructor
  · rintro ⟨e, he, rfl⟩
    exact ⟨e.2, get?_eq_some_iff.2 he⟩
  · rintro ⟨value, h⟩
    exact ⟨(name, value), get?_eq_some_iff.1 h, rfl⟩

theorem not_mem_names_iff {m : Named α} {name : String} :
    name ∉ m.names ↔ m.get? name = none := by
  rw [mem_names_iff, Option.eq_none_iff_forall_ne_some, not_exists]

theorem mem_names_unit_iff {m : Named Unit} {name : String} :
    name ∈ m.names ↔ m.get? name = some () := by
  rw [mem_names_iff]
  constructor
  · rintro ⟨⟨⟩, h⟩
    exact h
  · intro h
    exact ⟨(), h⟩

theorem names_nodup (m : Named α) : m.names.Nodup := by
  rw [names, List.nodup_iff_pairwise_ne, List.pairwise_map]
  refine m.rising.imp ?_
  intro a b hlt heq
  rw [heq] at hlt
  exact String.lt_irrefl _ hlt

/-- Entries that are put in their places again are as they were. -/
theorem ofList_entries (m : Named α) : ofList m.entries = m :=
  eq_of_entries_perm (entries_ofList_perm m.names_nodup)

theorem entries_nodup (m : Named α) : m.entries.Nodup :=
  m.names_nodup.of_map _

/-- Entries are told apart by looking them up. -/
theorem eq_of_get? {m m' : Named α} (h : ∀ name, m.get? name = m'.get? name) :
    m = m' := by
  refine eq_of_entries_perm
    ((List.perm_ext_iff_of_nodup m.entries_nodup m'.entries_nodup).2 ?_)
  rintro ⟨name, value⟩
  rw [← get?_eq_some_iff, ← get?_eq_some_iff, h]

-- ============================================================ repetitions

/-- The entries that a later one does not replace. -/
def kept : List (String × α) → List (String × α)
  | [] => []
  | e :: rest =>
    if e.1 ∈ rest.map (·.1) then kept rest else e :: kept rest

/-- The values that a later one under the same name replaces. -/
def superseded : List (String × α) → List α
  | [] => []
  | e :: rest =>
    if e.1 ∈ rest.map (·.1) then e.2 :: superseded rest
    else superseded rest

theorem kept_sublist (l : List (String × α)) : (kept l).Sublist l := by
  induction l with
  | nil => exact .slnil
  | cons e rest ih =>
      unfold kept
      split
      · exact ih.cons e
      · exact ih.cons_cons e

theorem kept_nodup (l : List (String × α)) :
    ((kept l).map (·.1)).Nodup := by
  induction l with
  | nil => exact .nil
  | cons e rest ih =>
      unfold kept
      split
      · exact ih
      · rename_i hnew
        refine List.nodup_cons.2 ⟨fun hmem => hnew ?_, ih⟩
        exact ((kept_sublist rest).map (·.1)).subset hmem

theorem values_kept_perm (l : List (String × α)) :
    ((kept l).map (·.2) ++ superseded l).Perm (l.map (·.2)) := by
  induction l with
  | nil => exact .nil
  | cons e rest ih =>
      unfold kept superseded
      split
      · exact List.perm_middle.trans (ih.cons e.2)
      · exact ih.cons e.2

theorem superseded_eq_nil {l : List (String × α)}
    (h : (l.map (·.1)).Nodup) : superseded l = [] := by
  induction l with
  | nil => rfl
  | cons e rest ih =>
      obtain ⟨hnew, hrest⟩ := List.nodup_cons.1 h
      rw [superseded, if_neg hnew, ih hrest]

/-- What is inserted under a name hides what was there, so a start
matters only under the other names. -/
theorem foldl_insert_congr {l : List (String × α)} {m m' : Named α}
    (h : ∀ name, name ∉ l.map (·.1) → m.get? name = m'.get? name) :
    l.foldl (fun m e => m.insert e.1 e.2) m
      = l.foldl (fun m e => m.insert e.1 e.2) m' := by
  induction l generalizing m m' with
  | nil => exact eq_of_get? fun name => h name List.not_mem_nil
  | cons e rest ih =>
      refine ih fun name hname => ?_
      rw [get?_insert, get?_insert]
      split
      · rfl
      · rename_i hne
        refine h name fun hmem => ?_
        rcases List.mem_cons.1 hmem with heq | hmem
        · exact hne heq
        · exact hname hmem

theorem foldl_insert_kept (l : List (String × α)) (m : Named α) :
    (kept l).foldl (fun m e => m.insert e.1 e.2) m
      = l.foldl (fun m e => m.insert e.1 e.2) m := by
  induction l generalizing m with
  | nil => rfl
  | cons e rest ih =>
      unfold kept
      split
      · rename_i hlater
        rw [ih, List.foldl_cons]
        refine foldl_insert_congr fun name hname => ?_
        rw [get?_insert, if_neg]
        rintro rfl
        exact hname hlater
      · exact ih _

/-- What a list holds and a map does not is what was replaced. -/
theorem values_append_superseded_perm (l : List (String × α)) :
    ((ofList l).values ++ superseded l).Perm (l.map (·.2)) := by
  have hkept : ofList (kept l) = ofList l := foldl_insert_kept l empty
  rw [← hkept]
  exact ((values_ofList_perm (kept_nodup l)).append_right _).trans
    (values_kept_perm l)

theorem size_eq_length_names (m : Named α) : m.size = m.names.length :=
  (List.length_map _).symm

theorem size_pos_iff {m : Named α} : 0 < m.size ↔ m.names ≠ [] := by
  rw [size_eq_length_names, List.length_pos_iff]

end Named

namespace ByCategory

theorem lookup_eq_none {l : List (Category × α)} {c : Category}
    (h : c ∉ l.map (·.1)) : l.lookup c = none := by
  rw [List.lookup_eq_none_iff]
  intro e he
  rw [bne_iff_ne]
  intro heq
  exact h (heq ▸ List.mem_map_of_mem he)

theorem get?_foldl {l : List (Category × α)} {m : ByCategory α}
    (h : (l.map (·.1)).Nodup) (c : Category) :
    (l.foldl (fun m e => m.insert e.1 e.2) m).get? c
      = (l.lookup c).or (m.get? c) := by
  induction l generalizing m with
  | nil => rfl
  | cons e rest ih =>
      rw [List.map_cons, List.nodup_cons] at h
      rw [List.foldl_cons, ih h.2, get?_insert, List.lookup_cons]
      by_cases hc : c = e.1
      · subst hc
        rw [lookup_eq_none h.1]
        simp
      · rw [if_neg hc, beq_eq_false_iff_ne.2 hc]

/-- Looking up the keys of a list, in an order that the list keeps,
gives the list back. -/
theorem filterMap_lookup {keys : List Category}
    {l : List (Category × α)} (hkeys : keys.Nodup)
    (h : (l.map (·.1)).Sublist keys) :
    keys.filterMap (fun c => (l.lookup c).map (c, ·)) = l := by
  induction keys generalizing l with
  | nil =>
      rw [List.sublist_nil, List.map_eq_nil_iff] at h
      subst h
      rfl
  | cons c keys ih =>
      obtain ⟨hnew, hrest⟩ := List.nodup_cons.1 hkeys
      rcases List.sublist_cons_iff.1 h with h | ⟨l', hl', h⟩
      · have hnone : l.lookup c = none :=
          lookup_eq_none fun hc => hnew (h.subset hc)
        rw [List.filterMap_cons_none (by rw [hnone]; rfl)]
        exact ih hrest h
      · obtain ⟨e, l, rfl, rfl, rfl⟩ := List.map_eq_cons_iff.1 hl'
        have htail : keys.filterMap
            (fun c => ((e :: l).lookup c).map (c, ·))
            = keys.filterMap (fun c => (l.lookup c).map (c, ·)) := by
          refine List.filterMap_congr fun c hc => ?_
          have hne : c ≠ e.1 := by
            rintro rfl
            exact hnew hc
          rw [List.lookup_cons, beq_eq_false_iff_ne.2 hne]
        rw [List.filterMap_cons_some (b := e)
          (by rw [List.lookup_cons, beq_self_eq_true]; rfl), htail,
          ih hrest h]

/-- Values in reporting order are kept in it. -/
theorem entries_ofList {l : List (Category × α)}
    (h : (l.map (·.1)).Sublist Category.all) : (ofList l).entries = l := by
  have hall : Category.all.Nodup := by decide
  have hget : ∀ c, (ofList l).get? c = l.lookup c := by
    intro c
    have hempty : (empty : ByCategory α).get? c = none := by
      cases c <;> rfl
    rw [ofList, get?_foldl (h.nodup hall), hempty, Option.or_none]
  rw [entries]
  simp only [hget]
  exact filterMap_lookup hall h

/-- The categories of the values present are in reporting order. -/
theorem map_entries_sublist (m : ByCategory α) :
    (m.entries.map (·.1)).Sublist Category.all := by
  unfold entries
  induction Category.all with
  | nil => exact .slnil
  | cons c keys ih =>
      rw [List.filterMap_cons]
      cases m.get? c with
      | none => exact ih.cons c
      | some a => exact ih.cons_cons c

theorem ofList_entries_self (m : ByCategory α) : ofList m.entries = m := by
  obtain ⟨regular, night, weekend, holiday⟩ := m
  cases regular <;> cases night <;> cases weekend <;> cases holiday <;> rfl

end ByCategory

end Payroll
