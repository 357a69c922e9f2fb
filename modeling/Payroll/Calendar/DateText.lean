/-
Dates as text. A date is written year first with hyphens between its
parts; a year outside 0 to 9999 carries its sign, and no year has fewer
than four digits.

Two readers share one grammar: a year of up to four digits, or of any
number of digits after a sign, then a month and a day of one or two
digits. Blanks may stand in front of each number. `ofText?` also lets
them stand before the hyphens and at the end, which is how dates are
written in data; `ofStem?` does not, which is how they name files.
-/
import Payroll.Calendar.Date
import Payroll.Text.Blank
import Payroll.Text.Digits

namespace Payroll.Date

open Payroll.Text

def yearText (year : Int) : List Char :=
  let ds := digits 4 year.natAbs
  if 0 ≤ year ∧ year ≤ 9999 then ds
  else if year < 0 then '-' :: ds
  else '+' :: ds

def toText (d : Date) : String :=
  String.ofList (yearText d.year ++ '-' :: digits 2 d.month
    ++ '-' :: digits 2 d.day)

-- =============================================================== reading

/-- A number at the front of a text, of at most `width` digits if there
is a width, and what follows it. -/
def readNumber (width : Option Nat) (cs : List Char) :
    Option (Nat × List Char) :=
  let run := cs.takeWhile Char.isDigit
  let taken := match width with
    | some w => run.take w
    | none => run
  (readDigits taken).map (·, cs.drop taken.length)

/-- A year: four digits at most, or a sign and any number of them. -/
def readYear (cs : List Char) : Option (Int × List Char) :=
  match trimLeft cs with
  | '-' :: rest => (readNumber none rest).map fun r => (-(r.1 : Int), r.2)
  | '+' :: rest => (readNumber none rest).map fun r => ((r.1 : Int), r.2)
  | rest => (readNumber (some 4) rest).map fun r => ((r.1 : Int), r.2)

/-- A month or a day. -/
def readPart (cs : List Char) : Option (Nat × List Char) :=
  readNumber (some 2) (trimLeft cs)

/-- What follows a hyphen. -/
def readHyphen : List Char → Option (List Char)
  | '-' :: rest => some rest
  | _ => none

/-- Reads a date, with `skip` applied wherever blanks may be passed
over only in data. -/
def readWith (skip : List Char → List Char) (cs : List Char) :
    Option Date := do
  let (year, cs) ← readYear cs
  let cs ← readHyphen (skip cs)
  let (month, cs) ← readPart cs
  let cs ← readHyphen (skip cs)
  let (day, cs) ← readPart cs
  if (skip cs).isEmpty then of? year month day else none

/-- A date in data, with blanks around its parts. -/
def ofText? (s : String) : Option Date := readWith trimLeft s.toList

/-- A date that names a file. -/
def ofStem? (s : String) : Option Date := readWith id s.toList

end Payroll.Date
