/-
Entries under names. A `Named α` is a list of entries whose names rise
strictly, so a name occurs once, the order of insertion leaves no
trace, and every total and report goes through the names in the order
of their characters.

Two facts carry the type: `insert` keeps the names rising, and looking
a name up after an insertion finds the new value there and the old one
elsewhere (`get?_insert`). Building from a list is repeated insertion,
so of two entries under one name the last one stands.
-/

namespace Payroll

/-- Entries under distinct names, in the order of the names. -/
structure Named (α : Type) where
  entries : List (String × α)
  rising : entries.Pairwise (·.1 < ·.1) := by exact .nil

namespace Named

variable {α : Type}

/-- No entries. -/
def empty : Named α := { entries := [] }

instance : EmptyCollection (Named α) := ⟨empty⟩

instance : Inhabited (Named α) := ⟨empty⟩

instance [DecidableEq α] : DecidableEq (Named α) := fun a b =>
  decidable_of_iff (a.entries = b.entries)
    ⟨fun h => by cases a; cases b; cases h; rfl, fun h => h ▸ rfl⟩

def names (m : Named α) : List String := m.entries.map (·.1)

def values (m : Named α) : List α := m.entries.map (·.2)

def size (m : Named α) : Nat := m.entries.length

/-- The value under a name. -/
def get? (m : Named α) (name : String) : Option α :=
  (m.entries.find? (·.1 == name)).map (·.2)

/-- Puts an entry in its place, over the one of the same name. -/
def insertEntry (name : String) (value : α) :
    List (String × α) → List (String × α)
  | [] => [(name, value)]
  | e :: rest =>
    if name < e.1 then (name, value) :: e :: rest
    else if e.1 < name then e :: insertEntry name value rest
    else (name, value) :: rest

theorem mem_insertEntry {name : String} {value : α} {e : String × α}
    {l : List (String × α)} (h : e ∈ insertEntry name value l) :
    e = (name, value) ∨ e ∈ l := by
  induction l with
  | nil => simpa [insertEntry] using h
  | cons e' rest ih =>
    unfold insertEntry at h
    split at h
    · simpa using h
    · split at h
      · rcases List.mem_cons.1 h with h | h
        · simp [h]
        · rcases ih h with h | h <;> simp [h]
      · rcases List.mem_cons.1 h with h | h <;> simp [h]

theorem rising_insertEntry (name : String) (value : α)
    {l : List (String × α)} (h : l.Pairwise (·.1 < ·.1)) :
    (insertEntry name value l).Pairwise (·.1 < ·.1) := by
  induction l with
  | nil => simp [insertEntry]
  | cons e rest ih =>
    obtain ⟨hhead, htail⟩ := List.pairwise_cons.1 h
    unfold insertEntry
    split
    · rename_i hlt
      refine List.pairwise_cons.2 ⟨fun e' he' => ?_, h⟩
      rcases List.mem_cons.1 he' with rfl | he'
      · exact hlt
      · exact String.lt_trans hlt (hhead e' he')
    · split
      · rename_i hlt
        refine List.pairwise_cons.2 ⟨fun e' he' => ?_, ih htail⟩
        rcases mem_insertEntry he' with rfl | he'
        · exact hlt
        · exact hhead e' he'
      · rename_i h₁ h₂
        have heq : e.1 = name :=
          String.le_antisymm (String.not_lt.1 h₁) (String.not_lt.1 h₂)
        exact List.pairwise_cons.2 ⟨fun e' he' => heq ▸ hhead e' he', htail⟩

/-- The entries with `value` under `name`. -/
def insert (m : Named α) (name : String) (value : α) : Named α :=
  { entries := insertEntry name value m.entries
    rising := rising_insertEntry name value m.rising }

/-- The entries but the one under `name`. -/
def erase (m : Named α) (name : String) : Named α :=
  { entries := m.entries.filter (·.1 != name)
    rising := m.rising.filter _ }

/-- The entries of a list, the last one standing for its name. -/
def ofList (l : List (String × α)) : Named α :=
  l.foldl (fun m e => m.insert e.1 e.2) empty

-- ================================================================ look-up

theorem find?_insertEntry (name key : String) (value : α)
    (l : List (String × α)) :
    (insertEntry name value l).find? (·.1 == key)
      = if key = name then some (name, value)
        else l.find? (·.1 == key) := by
  induction l with
  | nil =>
    by_cases h : key = name
    · simp [insertEntry, h]
    · simp [insertEntry, h, Ne.symm h]
  | cons e rest ih =>
    unfold insertEntry
    split
    · by_cases h : key = name
      · simp [h]
      · simp [List.find?_cons, h, Ne.symm h]
    · split
      · rename_i hlt
        by_cases he : e.1 = key
        · have : key ≠ name := by
            rintro rfl
            exact String.lt_irrefl _ (he ▸ hlt)
          simp [he, this]
        · simp [he, ih]
      · rename_i h₁ h₂
        have heq : e.1 = name :=
          String.le_antisymm (String.not_lt.1 h₁) (String.not_lt.1 h₂)
        by_cases h : key = name
        · simp [h]
        · simp [heq, h, Ne.symm h]

/-- An insertion is seen under its own name and nowhere else. -/
theorem get?_insert (m : Named α) (name key : String) (value : α) :
    (m.insert name value).get? key
      = if key = name then some value else m.get? key := by
  simp only [get?, insert, find?_insertEntry]
  by_cases h : key = name <;> simp [h]

/-- A name that is taken out is gone, and no other is. -/
theorem get?_erase (m : Named α) (name key : String) :
    (m.erase name).get? key
      = if key = name then none else m.get? key := by
  obtain ⟨entries, hrising⟩ := m
  simp only [get?, erase]
  clear hrising
  induction entries with
  | nil => simp
  | cons e rest ih =>
    by_cases he : e.1 = name
    · by_cases h : key = name
      · simp [h]
      · simpa [he, h, Ne.symm h] using ih
    · by_cases h : e.1 = key
      · have hne : key ≠ name := h ▸ he
        simp [h, hne]
      · simpa [he, h] using ih

end Named

end Payroll
