/-
Documents: the tree that data arrives in and leaves as. Amounts travel
as text, so that their scale survives.

Values that a format tells apart have a constructor each. Three more
are for a format that reads as it goes: a scalar whose kind it leaves
open, a sequence, which is a list that cannot stand for a record, and
the place where a text stopped being readable. What was read before
that place still counts.
-/
import Payroll.Document.Scalar

namespace Payroll

/-- A tree of data. -/
inductive Document where
  | null
  | bool (b : Bool)
  | number (n : Number)
  | text (s : String)
  | list (items : List Document)
  | table (entries : List (String × Document))
  | scalar (s : Scalar)
  | sequence (items : List Document)
  | unreadable

namespace Document

/-- The entries of a table as they were written. -/
abbrev Entries := List (String × Document)

instance : Inhabited Document := ⟨null⟩

def ofDecimal (a : Decimal) : Document := text a.toText

def ofNat (n : Nat) : Document := number (.whole n)

def ofOption {α : Type} (f : α → Document) : Option α → Document
  | some a => f a
  | none => null

/-- Whether nothing can be read here. -/
def isUnreadable : Document → Bool
  | unreadable => true
  | _ => false

end Document

end Payroll
