/-
The text of a YAML stream: letters that know where they stand. What a
letter means depends on its column, and whether a key may end at a
colon on its line, so both are noted before anything is read.

A line ends in a line feed, in a separator of its own that Unicode has
for lines and for paragraphs, or in one of the older ways, which are
unified to a line feed at the start. A text with a character that may
not stand in a stream cannot be read at all.
-/

namespace Payroll.Yaml

/-- Where a letter stands, counted from zero. -/
structure Place where
  line : Nat
  column : Nat
  index : Nat

/-- A character at its place. -/
structure Letter extends Place where
  char : Char

/-- The characters that a stream may hold. -/
def isAllowed (c : Char) : Bool :=
  let n := c.toNat
  n == 0x09 || n == 0x0A || n == 0x0D || (0x20 ≤ n && n ≤ 0x7E)
    || n == 0x85 || (0xA0 ≤ n && n ≤ 0xFFFD) || 0x10000 ≤ n

def isBreak (c : Char) : Bool :=
  c == '\n' || c == '\u2028' || c == '\u2029'

def isBlank (c : Char) : Bool := c == ' ' || c == '\t'

/-- Writes every older end of a line as a line feed. -/
def unifyBreaks : List Char → List Char
  | [] => []
  | '\r' :: '\n' :: rest => '\n' :: unifyBreaks rest
  | c :: rest =>
    (if c = '\r' ∨ c = '\u0085' then '\n' else c) :: unifyBreaks rest

/-- The place behind a character. -/
def Place.next (p : Place) (c : Char) : Place :=
  if isBreak c then { line := p.line + 1, column := 0, index := p.index + 1 }
  else { p with column := p.column + 1, index := p.index + 1 }

/-- The letters of a text that starts at `p`. -/
def letters (p : Place) : List Char → List Letter
  | [] => []
  | c :: rest => { toPlace := p, char := c } :: letters (p.next c) rest

namespace Letter

def isBreak (l : Letter) : Bool := Yaml.isBreak l.char

def isBlank (l : Letter) : Bool := Yaml.isBlank l.char

def isGap (l : Letter) : Bool := l.isBlank || l.isBreak

/-- The letters that names are made of. -/
def isName (l : Letter) : Bool :=
  l.char.isAlphanum || l.char == '_' || l.char == '-'

end Letter

/-- Whether the first of some letters is one of the given characters. -/
def startsIn (cs : List Char) : List Letter → Bool
  | l :: _ => cs.contains l.char
  | [] => false

/-- Whether a word can end before some letters. -/
def endsWord : List Letter → Bool
  | l :: _ => l.isGap
  | [] => true

/-- Whether a line starts with the character three times as a word of
its own. -/
def isMarked (c : Char) : List Letter → Bool
  | l :: m :: n :: rest =>
    l.column == 0 && l.char == c && m.char == c && n.char == c
      && endsWord rest
  | _ => false

/-- Whether a document starts or ends before some letters. -/
def atMarker (t : List Letter) : Bool := isMarked '-' t || isMarked '.' t

/-- What follows the end of the line, if nothing but blanks and a
comment stand before it. -/
def restOfLine? (t : List Letter) : Option (List Letter) :=
  let t := t.dropWhile (·.isBlank)
  let t := if startsIn ['#'] t then t.dropWhile (!·.isBreak) else t
  match t with
  | [] => some []
  | l :: rest => if l.isBreak then some rest else none

end Payroll.Yaml
