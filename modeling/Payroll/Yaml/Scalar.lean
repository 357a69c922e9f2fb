/-
Scalars in a YAML text: in quotes, plain, or as a block of lines.

A scalar in quotes and a plain one may go on over several lines. What
stands between two of its words is a `Gap`: blanks, or line breaks with
any blanks around them, and a single line feed among those reads as one
space. Whole texts are put together backwards, so `done` holds what was
read with its last character first.
-/
import Payroll.Document.Scalar
import Payroll.Yaml.Letter

namespace Payroll.Yaml

-- =================================================================== gaps

/-- What stands between two words: blanks on one line, or the first of
some line breaks and the others. A line break that is escaped is not
the first. Characters are listed from the last one on. -/
inductive Gap where
  | blanks (cs : List Char)
  | breaks (first : Option Char) (more : List Char)

namespace Gap

def none : Gap := blanks []

def isNone : Gap → Bool
  | blanks [] => true
  | _ => false

def isBreaks : Gap → Bool
  | breaks .. => true
  | blanks _ => false

/-- A gap with one more character. Blanks around a line break do not
count. -/
def add (c : Char) : Gap → Gap
  | blanks cs => if isBreak c then breaks (some c) [] else blanks (c :: cs)
  | breaks first more =>
    if isBreak c then breaks first (c :: more) else breaks first more

/-- What a gap reads as, from the last character on. -/
def text : Gap → List Char
  | blanks cs => cs
  | breaks (some '\n') [] => [' ']
  | breaks (some '\n') more => more
  | breaks first more => more ++ first.toList

end Gap

-- ================================================================= quotes

/-- The characters that stand for others behind a backslash. -/
def escapes : List (Char × Char) := [
  ('0', '\x00'), ('a', '\x07'), ('b', '\x08'), ('t', '\t'), ('\t', '\t'),
  ('n', '\n'), ('v', '\x0B'), ('f', '\x0C'), ('r', '\r'), ('e', '\x1B'),
  (' ', ' '), ('"', '"'), ('/', '/'), ('\\', '\\'), ('N', '\u0085'),
  ('_', '\u00A0'), ('L', '\u2028'), ('P', '\u2029')]

/-- How many digits a character code has behind its letter. -/
def codeLengths : List (Char × Nat) := [('x', 2), ('u', 4), ('U', 8)]

/-- The character that letters behind a backslash stand for, and how
many of them. -/
def escape? : List Letter → Option (Char × Nat)
  | [] => none
  | l :: rest =>
    match escapes.lookup l.char, codeLengths.lookup l.char with
    | some c, _ => some (c, 1)
    | none, some length =>
      let digits := (rest.take length).map (·.char)
      match Scalar.readBase? 16 digits with
      | some code =>
        if digits.length = length ∧ code.isValidChar then
          some (Char.ofNat code, length + 1)
        else none
      | none => none
    | none, none => none

/-- The text of a scalar behind its opening quote, and what follows its
closing one. A single quote is escaped by another. No marker may stand
in it at the start of a line. -/
def quoted (quote : Char) (done : List Char) (gap : Gap) :
    List Letter → Option (List Char × List Letter)
  | [] => none
  | l :: rest =>
    let text := gap.text ++ done
    if l.isGap then quoted quote done (gap.add l.char) rest
    else if atMarker (l :: rest) then none
    else if l.char = quote then
      match rest with
      | m :: rest' =>
        if quote = '\'' ∧ m.char = '\'' then
          quoted quote ('\'' :: text) .none rest'
        else some (text.reverse, rest)
      | [] => some (text.reverse, [])
    else if quote = '"' ∧ l.char = '\\' then
      match rest with
      | m :: rest' =>
        if m.isBreak then quoted quote text (.breaks none []) rest'
        else
          match escape? (m :: rest') with
          | some (c, length) =>
            quoted quote (c :: text) .none ((m :: rest').drop length)
          | none => none
      | [] => none
    else quoted quote (l.char :: text) .none rest
termination_by t => t.length
decreasing_by all_goals simp only [List.length_cons, List.length_drop]; omega

-- ================================================================== plain

/-- The characters that divide a flow collection. -/
def flowMarks : List Char := [',', '[', ']', '\x7b', '\x7d']

/-- Whether a plain scalar ends before some letters inside a line. -/
def endsPlain (inFlow : Bool) (t : List Letter) : Bool :=
  (startsIn [':'] t && endsWord (t.drop 1)) || (inFlow && startsIn flowMarks t)

/-- A plain scalar. -/
structure Plain where
  text : String
  /-- What follows the gap behind it. -/
  rest : List Letter
  /-- Whether a line ends in that gap. -/
  endsLine : Bool

/-- A plain scalar that ends in front of some letters. -/
def Plain.upTo (done : List Char) (gap : Gap) (rest : List Letter) : Plain :=
  { text := String.ofList done.reverse, rest, endsLine := gap.isBreaks }

/-- A plain scalar from its first letter on. It ends at a comment, at
the colon behind a key, at a marker and, in a block, before a line that
is indented by less than `least`. A tab cannot indent a line. -/
def plain? (inFlow : Bool) (least : Nat) (done : List Char) (gap : Gap) :
    List Letter → Option Plain
  | [] => some (.upTo done gap [])
  | l :: rest =>
    if l.isGap then
      if gap.isBreaks && l.column < least && l.char == '\t' then none
      else plain? inFlow least done (gap.add l.char) rest
    else if !gap.isNone
        && ((!inFlow && l.column < least) || l.char == '#') then
      some (.upTo done gap (l :: rest))
    else if atMarker (l :: rest) then some (.upTo done gap (l :: rest))
    else if inFlow && l.char == ':' && startsIn ('?' :: flowMarks) rest then
      none
    else if endsPlain inFlow (l :: rest) then
      some (.upTo done gap (l :: rest))
    else plain? inFlow least (l.char :: (gap.text ++ done)) .none rest

-- ================================================================= blocks

/-- What becomes of the line breaks at the end of a block. -/
inductive Chomp where
  | strip
  | clip
  | keep
deriving DecidableEq

/-- How a block ends, if its head says so. -/
def readChomp : List Letter → Chomp × List Letter
  | l :: rest =>
    if l.char = '+' then (.keep, rest)
    else if l.char = '-' then (.strip, rest)
    else (.clip, l :: rest)
  | [] => (.clip, [])

/-- By how much a block is indented, or zero if its head does not say
so. -/
def increment? : List Letter → Option (Nat × List Letter)
  | l :: rest =>
    if l.char = '0' then none
    else if l.char.isDigit then some (l.char.toNat - '0'.toNat, rest)
    else some (0, l :: rest)
  | [] => some (0, [])

/-- The head of a block, and its lines. The two indicators may stand in
either order. -/
def blockHead? (t : List Letter) : Option (Chomp × Nat × List Letter) := do
  let (first, t) := readChomp t
  let (increment, t) ← increment? t
  let (last, t) := if first = .clip then readChomp t else (first, t)
  return (last, increment, ← restOfLine? t)

/-- The empty lines before some letters, as their line breaks, the
column of the widest of them or of what follows, and what follows. An
`indent` of zero is not known yet. A tab cannot indent. -/
def emptyLines (indent widest : Nat) (breaks : List Char) :
    List Letter → Option (List Char × Nat × List Letter)
  | [] => some (breaks.reverse, widest, [])
  | l :: rest =>
    let isInside := indent == 0 || l.column < indent
    if isInside && l.char == ' ' then emptyLines indent widest breaks rest
    else if isInside && l.char == '\t' then none
    else
      let widest := max widest l.column
      if l.isBreak then emptyLines indent widest (l.char :: breaks) rest
      else some (breaks.reverse, widest, l :: rest)

/-- The lines of a block with the given indentation, and what follows
them. `first` is the line break behind the line before, `more` are the
empty lines behind that; in a folded block the former becomes a space
between two lines that do not start with a blank. Each line has a letter,
so their number bounds the fuel. -/
def blockLines (isFolded : Bool) (indent : Nat) (chomp : Chomp)
    (fuel : Nat) (done first more : List Char) (wasBlank : Bool)
    (t : List Letter) : Option (List Char × List Letter) :=
  let tail := (if chomp = .strip then [] else first)
    ++ (if chomp = .keep then more else [])
  match fuel, t with
  | fuel + 1, l :: rest =>
    if l.column = indent then do
      let gap :=
        if isFolded && first == ['\n'] && !wasBlank && !l.isBlank then
          if more.isEmpty then [' '] else more
        else first ++ more
      let line := (l :: rest).takeWhile (!·.isBreak)
      let behind := (l :: rest).dropWhile (!·.isBreak)
      let (more, _, rest) ← emptyLines indent 0 [] (behind.drop 1)
      blockLines isFolded indent chomp fuel
        (done ++ gap ++ line.map (·.char)) ((behind.take 1).map (·.char))
        more l.isBlank rest
    else some (done ++ tail, l :: rest)
  | _, t => some (done ++ tail, t)

/-- The text of a block scalar behind its mark, and what follows it.
`least` is the least indentation that it can have; if its head does not
say more, then its first line does. -/
def block? (isFolded : Bool) (least : Nat) (t : List Letter) :
    Option (String × List Letter) := do
  let (chomp, increment, t) ← blockHead? t
  let stated :=
    if increment = 0 then 0 else (least - 1) + increment
  let (more, widest, t) ← emptyLines stated 0 [] t
  let indent := if stated = 0 then max widest (max least 1) else stated
  let (cs, rest) ←
    blockLines isFolded indent chomp t.length [] [] more false t
  return (String.ofList cs, rest)

end Payroll.Yaml
