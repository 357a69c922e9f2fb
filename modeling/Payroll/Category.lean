/-
Categories of overtime. Each category is paid at its own multiplier,
and every report goes through them in one fixed order. `ByCategory`
holds at most one value for each, so that order is part of the type.
-/

namespace Payroll

/-- When overtime was worked. `regular` is overtime on an ordinary
weekday during the day. -/
inductive Category where
  | regular
  | night
  | weekend
  | holiday
deriving DecidableEq

namespace Category

/-- Every category, in reporting order. -/
def all : List Category := [.regular, .night, .weekend, .holiday]

/-- The name used in rules and reports. -/
def name : Category → String
  | .regular => "regular"
  | .night => "night"
  | .weekend => "weekend"
  | .holiday => "holiday"

/-- The category of a name. -/
def ofName? (s : String) : Option Category := all.find? (·.name == s)

theorem mem_all (c : Category) : c ∈ all := by cases c <;> decide

theorem ofName?_name (c : Category) : ofName? c.name = some c := by
  cases c <;> decide

end Category

/-- At most one value for each category. -/
structure ByCategory (α : Type) where
  regular : Option α := none
  night : Option α := none
  weekend : Option α := none
  holiday : Option α := none
deriving DecidableEq

namespace ByCategory

variable {α : Type}

def empty : ByCategory α := {}

instance : EmptyCollection (ByCategory α) := ⟨empty⟩

instance : Inhabited (ByCategory α) := ⟨empty⟩

def get? (m : ByCategory α) : Category → Option α
  | .regular => m.regular
  | .night => m.night
  | .weekend => m.weekend
  | .holiday => m.holiday

def insert (m : ByCategory α) (c : Category) (value : α) : ByCategory α :=
  match c with
  | .regular => { m with regular := some value }
  | .night => { m with night := some value }
  | .weekend => { m with weekend := some value }
  | .holiday => { m with holiday := some value }

/-- The values of a list, the last one standing for its category. -/
def ofList (l : List (Category × α)) : ByCategory α :=
  l.foldl (fun m e => m.insert e.1 e.2) empty

/-- The values present with their categories, in reporting order. -/
def entries (m : ByCategory α) : List (Category × α) :=
  Category.all.filterMap fun c => (m.get? c).map (c, ·)

def values (m : ByCategory α) : List α := m.entries.map (·.2)

theorem get?_insert (m : ByCategory α) (c c' : Category) (value : α) :
    (m.insert c value).get? c' = if c' = c then some value else m.get? c' := by
  cases c <;> cases c' <;> rfl

theorem mem_entries {m : ByCategory α} {c : Category} {a : α} :
    (c, a) ∈ m.entries ↔ m.get? c = some a := by
  simp only [entries, List.mem_filterMap, Option.map_eq_some_iff,
    Prod.mk.injEq]
  constructor
  · rintro ⟨c', -, a', h, rfl, rfl⟩
    exact h
  · intro h
    exact ⟨c, c.mem_all, a, h, rfl, rfl⟩

end ByCategory

end Payroll
