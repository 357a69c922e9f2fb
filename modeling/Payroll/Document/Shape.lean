/-
Records in documents. A record is a table of named fields, of which
those that the record does not know are ignored, or a list of all its
fields in order.

A `Shape` says which fields a record has and how its value is made of
them, so it is written field by field, as in
`Pair.mk <$> required "left" asText <*> required "right" asText`. The
fields of a table are taken in the order in which they are written, and
the first fault in that order is the one that is reported; a field that
is missing is noticed behind all others. So `Shape.build` says not only
that a field is at fault but also where, and of two faults `<*>` keeps
the earlier.
-/
import Payroll.Document.Reader

namespace Payroll

open Document (Entries)

/-- What is wrong with a record, and behind how many of its entries it
is noticed. -/
structure Flaw where
  position : Nat
  cause : ReadError

/-- How a record is read: what its fields are called, and how its value
comes out of them. -/
structure Shape (α : Type) where
  names : List String
  build : Entries → Except Flaw α

namespace Shape

def constant {α : Type} (a : α) : Shape α :=
  { names := [], build := fun _ => .ok a }

/-- A value made from the fields of two shapes. -/
def apply {α β : Type} (f : Shape (α → β)) (x : Shape α) : Shape β where
  names := f.names ++ x.names
  build entries :=
    match f.build entries, x.build entries with
    | .ok g, .ok a => .ok (g a)
    | .error p, .error q =>
      .error (if q.position < p.position then q else p)
    | .error p, .ok _ => .error p
    | .ok _, .error q => .error q

instance : Applicative Shape where
  pure := constant
  seq f x := apply f (x ())

-- ================================================================= fields

/-- Where a field is, and what was written for it. -/
def find? (name : String) (entries : Entries) : Option (Nat × Document) :=
  let before := entries.takeWhile (·.1 != name)
  entries[before.length]?.map fun e => (before.length, e.2)

/-- A field, with what stands for one that is missing. -/
def field {α : Type} (name : String) (read : Document → Read α)
    (missing : Read α) : Shape α where
  names := [name]
  build entries :=
    match find? name entries with
    | some (position, d) =>
      (read d).mapError fun cause => { position, cause }
    | none =>
      missing.mapError fun cause => { position := entries.length, cause }

/-- A field that has to be given. -/
def required {α : Type} (name : String) (read : Document → Read α) :
    Shape α :=
  field name read (.error .illTyped)

/-- A field with a default. Given as a null it is not absent. -/
def withDefault {α : Type} (name : String) (read : Document → Read α)
    (default : α) : Shape α :=
  field name read (.ok default)

/-- A field that may be absent or null. -/
def optional {α : Type} (name : String) (read : Document → Read α) :
    Shape (Option α) :=
  field name (·.asOption read) (.ok none)

-- ================================================================ reading

/-- Behind how many entries a record with the given names is broken off:
an entry that it knows comes again, or one that it skips is
unreadable. -/
def breach? (names : List String) (seen : List String) (position : Nat) :
    Entries → Option Nat
  | [] => none
  | (name, d) :: rest =>
    if name ∈ names then
      if name ∈ seen then some position
      else breach? names (name :: seen) (position + 1) rest
    else if d.isUnreadable then some position
    else breach? names seen (position + 1) rest

def ofEntries {α : Type} (s : Shape α) (entries : Entries) : Read α :=
  match s.build entries, breach? s.names [] 0 entries with
  | .ok a, none => .ok a
  | .ok _, some _ => .error .illTyped
  | .error flaw, none => .error flaw.cause
  | .error flaw, some position =>
    .error (if flaw.position < position then flaw.cause else .illTyped)

/-- The record of a document. A list may not be longer than the record
has fields. -/
def read {α : Type} (s : Shape α) : Document → Read α
  | .table entries => s.ofEntries entries
  | .list items => do
    let a ← s.ofEntries (s.names.zip items)
    if items.length ≤ s.names.length then .ok a else .error .illTyped
  | .scalar c => if c.isEmpty then s.ofEntries [] else .error .illTyped
  | _ => .error .illTyped

/-- A table is read if its fields are and nothing else is at fault. -/
theorem read_table {α : Type} {s : Shape α} {entries : Entries} {a : α}
    (hbuild : s.build entries = .ok a)
    (hbreach : breach? s.names [] 0 entries = none) :
    s.read (.table entries) = .ok a := by
  simp only [read, ofEntries, hbuild, hbreach]

end Shape

end Payroll
