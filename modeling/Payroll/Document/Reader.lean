/-
Reading values out of documents. A reader asks for a kind of value and
either finds it or says why it cannot be had: the document is of
another kind, a rule table in it is malformed, or building the table
ran into arithmetic without a result. Of several complaints the first
in the order of the document is reported.
-/
import Payroll.Calendar.DateText
import Payroll.Category
import Payroll.Document.Basic
import Payroll.Error.Basic
import Payroll.Named

namespace Payroll

open scoped Power

/-- Why a document cannot be read as what is wanted. -/
inductive ReadError where
  | illTyped
  | malformed (defect : TableDefect)
  | crash (crash : Crash)
deriving DecidableEq

abbrev Read := Except ReadError

namespace Document

/-- What is found, or the complaint that nothing is. -/
def found {α : Type} : Option α → Read α
  | some a => .ok a
  | none => .error .illTyped

-- =============================================================== leaves

def asText : Document → Read String
  | text s => .ok s
  | scalar s => .ok s.text
  | _ => .error .illTyped

def asBool : Document → Read Bool
  | bool b => .ok b
  | scalar s => found s.bool?
  | _ => .error .illTyped

/-- A whole number, written without a fraction or an exponent. -/
def asInt : Document → Read Int
  | number (.whole n) => .ok n
  | scalar s => found s.whole?
  | _ => .error .illTyped

/-- A whole number from zero up to, but not including, `bound`. A
scalar must not have a minus. -/
def asNatBelow (bound : Nat) (d : Document) : Read Nat := do
  let n ← match d with
    | scalar s => found (s.natural?.map fun n => (n : Int))
    | d => d.asInt
  if 0 ≤ n ∧ n < bound then .ok n.toNat else .error .illTyped

/-- A whole number of 32 bits. -/
def asUInt32 (d : Document) : Read UInt32 :=
  UInt32.ofNat <$> d.asNatBelow (2 ^ (32 : Nat))

/-- An amount: a number, or the text of one. -/
def asDecimal : Document → Read Decimal
  | number n => found n.toDecimal?
  | text s => found (Decimal.ofText? s)
  | scalar s => match s.meaning? with
    | some (.number n) => found n.toDecimal?
    | some .text => found (Decimal.ofText? s.text)
    | _ => .error .illTyped
  | _ => .error .illTyped

def asDate (d : Document) : Read Date := do
  found (Date.ofText? (← d.asText))

def asPeriod (d : Document) : Read Period := do
  match Period.parse (← d.asText) with
  | .ok p => .ok p
  | .error _ => .error .illTyped

/-- One of a set of names, alone or as the name of an empty entry. -/
def asOneOf {α : Type} (ofName? : String → Option α) : Document → Read α
  | text s | table [(s, null)] => found (ofName? s)
  | scalar s => found (s.name?.bind ofName?)
  | _ => .error .illTyped

-- ========================================================== lists and maps

def asItems : Document → Read (List Document)
  | list items | sequence items => .ok items
  | scalar s => if s.isEmpty then .ok [] else .error .illTyped
  | _ => .error .illTyped

def asList {α : Type} (read : Document → Read α) (d : Document) :
    Read (List α) := do
  (← d.asItems).mapM read

def asEntries : Document → Read Entries
  | table entries => .ok entries
  | scalar s => if s.isEmpty then .ok [] else .error .illTyped
  | _ => .error .illTyped

/-- Values under names. -/
def asNamed {α : Type} (read : Document → Read α) (d : Document) :
    Read (Named α) := do
  let entries ← (← d.asEntries).mapM fun e => do
    return (e.1, ← read e.2)
  return .ofList entries

/-- Values under the names of categories. -/
def asByCategory {α : Type} (read : Document → Read α) (d : Document) :
    Read (ByCategory α) := do
  let entries ← (← d.asEntries).mapM fun e => do
    return (← found (Category.ofName? e.1), ← read e.2)
  return .ofList entries

/-- A value that may be absent, which is written as a null. -/
def asOption {α : Type} (read : Document → Read α) :
    Document → Read (Option α)
  | null => .ok none
  | scalar s => match s.isAbsent? with
    | some true => .ok none
    | some false => some <$> read (scalar s)
    | none => .error .illTyped
  | d => some <$> read d

end Document

end Payroll
