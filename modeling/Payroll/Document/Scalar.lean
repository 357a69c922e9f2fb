/-
Scalars: single values that a text format wrote as characters, with
what it noted beside them. A format that has one notation for numbers,
truth values, nothing and text leaves open which of them is meant, and
it is settled by what is wanted in the scalar's place: where text is
wanted it is the text itself, elsewhere what it spells.

Only a scalar that was written plainly spells something else than
text. A tag of the core schema fixes what is to be spelled; a tag of
the writer's own names a variant, and no other value can have it.
-/
import Payroll.Document.Number

namespace Payroll

open Text
open scoped Power

/-- How a scalar was written: plainly, as a literal block, or in
quotes. A folded block counts as quoted. -/
inductive Style where
  | plain
  | literal
  | quoted
deriving DecidableEq

/-- A name given to a value: by the core schema, by its writer, or by
some other schema. -/
inductive Tag where
  | core (name : String)
  | own (name : String)
  | other
deriving DecidableEq

/-- A value as characters. -/
structure Scalar where
  text : String
  style : Style
  tag : Option Tag
deriving DecidableEq

namespace Scalar

/-- The scalar that stands where nothing was written. -/
def empty : Scalar := { text := "", style := .plain, tag := none }

-- ============================================================== spellings

def spellsNull (s : String) : Bool := ["~", "null", "Null", "NULL"].contains s

def readBool? (s : String) : Option Bool :=
  if ["true", "True", "TRUE"].contains s then some true
  else if ["false", "False", "FALSE"].contains s then some false
  else none

/-- Whether a text is a run of digits that starts with a superfluous
zero. Such a run is no number. -/
def isPadded (cs : List Char) : Bool :=
  match (Decimal.splitSign cs).2 with
  | '0' :: c :: rest => (c :: rest).all Char.isDigit
  | _ => false

/-- The number of a digit in a base of at most sixteen. -/
def digit? (base : Nat) (c : Char) : Option Nat :=
  let n :=
    if c.isDigit then c.toNat - '0'.toNat
    else if 'a' ≤ c ∧ c ≤ 'f' then c.toNat - 'a'.toNat + 10
    else if 'A' ≤ c ∧ c ≤ 'F' then c.toNat - 'A'.toNat + 10
    else base
  if n < base then some n else none

/-- The number of a run of digits that is not empty. -/
def readBase? (base : Nat) (cs : List Char) : Option Nat :=
  if cs.isEmpty then none
  else cs.foldlM (fun n c => (digit? base c).map (base * n + ·)) 0

/-- A magnitude: digits, or digits of another base behind its mark. -/
def readMagnitude? : List Char → Option Nat
  | '0' :: 'x' :: rest => readBase? 16 rest
  | '0' :: 'o' :: rest => readBase? 8 rest
  | '0' :: 'b' :: rest => readBase? 2 rest
  | cs => if isPadded cs then none else readDigits cs

/-- A whole number without a minus. -/
def readNatural? : List Char → Option Nat
  | '+' :: rest => readMagnitude? rest
  | cs => readMagnitude? cs

/-- A whole number of at most 128 bits. -/
def readWhole? (cs : List Char) : Option Int :=
  let n? : Option Int := match cs with
    | '-' :: rest => (readMagnitude? rest).map fun n => -(n : Int)
    | _ => (readNatural? cs).map fun n => (n : Int)
  n?.filter fun n => -(2 ^ (127 : Nat)) ≤ n && n < 2 ^ (128 : Nat)

/-- Any other number. -/
def readFraction? (cs : List Char) : Option Number :=
  (Literal.ofChars? cs).bind Number.ofLiteral?

def readNumber? (cs : List Char) : Option Number :=
  match readWhole? cs with
  | some n => some (.whole n)
  | none => if isPadded cs then none else readFraction? cs

-- ================================================================ meaning

/-- What a scalar stands for where any value is welcome. -/
inductive Meaning where
  | null
  | bool (b : Bool)
  | number (n : Number)
  | text

/-- What a plain scalar without a tag spells. -/
def spelled (s : String) : Meaning :=
  if s.isEmpty || spellsNull s then .null
  else
    match readBool? s, readNumber? s.toList with
    | some b, _ => .bool b
    | none, some n => .number n
    | none, none => .text

/-- What a scalar stands for, if its tag can be met. -/
def meaning? (s : Scalar) : Option Meaning :=
  match s.tag with
  | some (.own _) => none
  | some (.core "null") => if spellsNull s.text then some .null else none
  | some (.core "bool") => (readBool? s.text).map .bool
  | some (.core "int") =>
    (readWhole? s.text.toList).map fun n => .number (.whole n)
  | some (.core "float") => (readFraction? s.text.toList).map .number
  | some _ => some .text
  | none => some (if s.style = .plain then spelled s.text else .text)

/-- Whether the text of a scalar is open to be read as the kind of value
that a tag of the core schema names. -/
def isOpenTo (s : Scalar) (name : String) : Bool :=
  s.style == .plain || (s.style == .literal && s.tag == some (.core name))

def bool? (s : Scalar) : Option Bool :=
  if s.isOpenTo "bool" then readBool? s.text else none

def whole? (s : Scalar) : Option Int :=
  if s.isOpenTo "int" then readWhole? s.text.toList else none

def natural? (s : Scalar) : Option Nat :=
  if s.isOpenTo "int" then readNatural? s.text.toList else none

/-- Whether a scalar stands for the absence of a value; `none` if its
tag cannot be met. -/
def isAbsent? (s : Scalar) : Option Bool :=
  if s.style ≠ .plain then some false
  else
    match s.tag with
    | some (.core "null") =>
      if spellsNull s.text then some true else none
    | some _ => some false
    | none => some (s.text.isEmpty || spellsNull s.text)

/-- Whether nothing was written, which also serves as an empty list or
map. -/
def isEmpty (s : Scalar) : Bool := s.style == .plain && s.text.isEmpty

/-- The name that a scalar gives of a variant: its text, or a tag of the
writer's own on nothing. -/
def name? (s : Scalar) : Option String :=
  match s.tag with
  | some (.own name) =>
    if s.style = .plain && (s.text.isEmpty || spellsNull s.text) then
      some name
    else none
  | _ => some s.text

end Scalar

end Payroll
