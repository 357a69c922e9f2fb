/-
Tokens of a YAML text. Indentation becomes tokens too: a block starts
where a line is indented further than the block around it, and ends
where one is not.

Whether a scalar is a key shows only at the colon behind it, so each
scalar that could be one is remembered as a `Candidate`, one for every
bracket that is open. At a colon the mark of a key is put in front of
it, and the start of a block if need be. A key has to end on the line
on which it starts, within 1024 characters. A candidate at the
indentation of its block can be nothing but a key, so giving it up is
a fault.

Tokens are handed on as they are found, but none from a candidate on
that is still open. So a fault lets those through that stand in front
of the first open candidate (`Scanner.settled`), and everything behind
them is lost.
-/
import Payroll.Yaml.Scalar
import Payroll.Yaml.Tag

namespace Payroll.Yaml

/-- The parts of a YAML text. -/
inductive Token where
  | directive (d : Directive)
  | documentStart
  | documentEnd
  | streamEnd
  | blockSequence
  | blockMapping
  | blockEnd
  | flowSequence
  | flowSequenceEnd
  | flowMapping
  | flowMappingEnd
  | entry
  | comma
  | key
  | value
  | alias (name : String)
  | anchor (name : String)
  | tag (name : TagName)
  | scalar (text : String) (style : Style)
  /-- Where the text cannot be read any further. -/
  | fault

/-- A token that may turn out to start a key. -/
structure Candidate where
  /-- How many tokens there were before it. -/
  number : Nat
  /-- Whether it can be nothing else. -/
  isRequired : Bool
  place : Place

/-- A text on its way to tokens. -/
structure Scanner where
  rest : List Letter
  /-- The place behind the last letter. -/
  last : Place
  /-- The tokens so far, from the latest on. -/
  tokens : List Token
  /-- The indentation of the innermost block, or -1 outside of all. -/
  indent : Int
  /-- That of the blocks around it, from the inside out. -/
  outer : List Int
  /-- The candidates inside each open bracket, from the inside out, and
  that outside of all brackets. -/
  candidates : List (Option Candidate)
  /-- Whether a key may start here. -/
  keysAllowed : Bool

namespace Scanner

def ofText (cs : List Char) : Scanner where
  rest := letters { line := 0, column := 0, index := 0 } cs
  last := cs.foldl Place.next { line := 0, column := 0, index := 0 }
  tokens := []
  indent := -1
  outer := []
  candidates := [none]
  keysAllowed := true

def here (s : Scanner) : Place :=
  match s.rest with
  | l :: _ => l.toPlace
  | [] => s.last

def inFlow (s : Scanner) : Bool := 1 < s.candidates.length

def count (s : Scanner) : Nat := s.tokens.length

/-- How many tokens stand in front of every open candidate. -/
def settled (s : Scanner) : Nat :=
  (s.candidates.filterMap (·.map (·.number))).foldl min s.count

def emit (token : Token) (s : Scanner) : Scanner :=
  { s with tokens := token :: s.tokens }

/-- Puts a token in front of the one with the given number. -/
def insert (number : Nat) (token : Token) (s : Scanner) : Scanner :=
  { s with tokens := s.tokens.insertIdx (s.count - number) token }

def skip (length : Nat) (s : Scanner) : Scanner :=
  { s with rest := s.rest.drop length }

def allowKeys (allowed : Bool) (s : Scanner) : Scanner :=
  { s with keysAllowed := allowed }

-- ============================================================= candidates

def isStale (here : Place) (c : Candidate) : Bool :=
  c.place.line < here.line || c.place.index + 1024 < here.index

/-- Gives up the candidates that cannot be keys any more. -/
def dropStale (s : Scanner) : Option Scanner := do
  let candidates ← s.candidates.mapM fun c? =>
    match c? with
    | some c =>
      if isStale s.here c then if c.isRequired then none else some none
      else some c?
    | none => some none
  return { s with candidates }

/-- Gives up the innermost candidate. -/
def forget (s : Scanner) : Option Scanner :=
  match s.candidates with
  | some c :: outer =>
    if c.isRequired then none
    else some { s with candidates := none :: outer }
  | _ => some s

/-- Makes the next token a candidate, if a key may start here. -/
def remember (s : Scanner) : Option Scanner :=
  if s.keysAllowed then do
    let s ← s.forget
    let c : Candidate := {
      number := s.count
      isRequired := !s.inFlow && s.indent == s.here.column
      place := s.here }
    return { s with candidates := some c :: s.candidates.drop 1 }
  else some s

-- ============================================================ indentation

/-- Ends the blocks that are indented further than `column`. Brackets
suspend indentation. -/
def unindent (column : Int) (s : Scanner) : Scanner :=
  if s.inFlow then s
  else
    let levels := s.indent :: s.outer
    let ended := (levels.takeWhile (column < ·)).length
    { s with
      tokens := List.replicate ended .blockEnd ++ s.tokens
      indent := levels[ended]?.getD (-1)
      outer := levels.drop (ended + 1) }

/-- Starts a block at `column`, in front of the token with the given
number, unless it is the innermost block that goes on there. -/
def indentTo (column number : Nat) (token : Token) (s : Scanner) : Scanner :=
  if s.inFlow || !(s.indent < column) then s
  else
    { s.insert number token with
      indent := column
      outer := s.indent :: s.outer }

/-- Skips blanks, comments and line breaks up to the next token, and says
whether a key may start there. Where one may start already, a tab is no
blank. -/
def toToken (inFlow keysAllowed inComment : Bool) :
    List Letter → Bool × List Letter
  | [] => (keysAllowed, [])
  | l :: rest =>
    if l.isBreak then toToken inFlow (keysAllowed || !inFlow) false rest
    else if inComment then toToken inFlow keysAllowed true rest
    else if l.char == ' '
        || (l.char == '\t' && (inFlow || !keysAllowed))
        || (l.char == '\uFEFF' && l.column == 0) then
      toToken inFlow keysAllowed false rest
    else if l.char == '#' then toToken inFlow keysAllowed true rest
    else (keysAllowed, l :: rest)

def skipGap (s : Scanner) : Scanner :=
  let (keysAllowed, rest) := toToken s.inFlow s.keysAllowed false s.rest
  { s with keysAllowed, rest }

-- ================================================================= tokens

/-- Ends all blocks for a token that belongs to none. -/
def leaveBlocks (s : Scanner) : Option Scanner := do
  return (← (s.unindent (-1)).forget).allowKeys false

def openBracket (token : Token) (s : Scanner) : Option Scanner := do
  let s ← s.remember
  return ({ s with
    candidates := none :: s.candidates
    keysAllowed := true }.skip 1).emit token

def closeBracket (token : Token) (s : Scanner) : Option Scanner := do
  let s ← s.forget
  let candidates := if s.inFlow then s.candidates.drop 1 else s.candidates
  return ({ s with candidates, keysAllowed := false }.skip 1).emit token

/-- A mark that may start a block of the given kind. -/
def blockMark (mark start : Token) (s : Scanner) : Option Scanner := do
  if !s.inFlow && !s.keysAllowed then none
  else
    let s ← (s.indentTo s.here.column s.count start).forget
    return (s.skip 1).emit mark

/-- The colon behind a key. The innermost candidate is the key, if there
is one. -/
def colon (s : Scanner) : Option Scanner :=
  match s.candidates with
  | some c :: outer =>
    let s := (s.insert c.number .key).indentTo c.place.column c.number
      .blockMapping
    some ((({ s with candidates := none :: outer }.allowKeys false).skip
      1).emit .value)
  | _ =>
    if s.inFlow then some (((s.allowKeys false).skip 1).emit .value)
    else if s.keysAllowed then
      some (((s.indentTo s.here.column s.count .blockMapping).skip
        1).emit .value)
    else none

/-- A token that can be the start of a key, read from the letters here
on. -/
def word (read : List Letter → Option (Token × List Letter))
    (s : Scanner) : Option Scanner := do
  let s ← s.remember
  let (token, rest) ← read s.rest
  return ({ s with rest }.allowKeys false).emit token

def plainWord (s : Scanner) : Option Scanner := do
  let s ← s.remember
  let found ← plain? s.inFlow (s.indent + 1).toNat [] .none s.rest
  return ({ s with rest := found.rest }.allowKeys found.endsLine).emit
    (.scalar found.text .plain)

def quotedWord (quote : Char) (t : List Letter) :
    Option (Token × List Letter) := do
  let (cs, rest) ← quoted quote [] .none (t.drop 1)
  return (.scalar (String.ofList cs) .quoted, rest)

def blockText (isFolded : Bool) (s : Scanner) : Option Scanner := do
  let s ← s.forget
  let (text, rest) ←
    block? isFolded (s.indent + 1).toNat (s.rest.drop 1)
  return ({ s with rest }.allowKeys true).emit
    (.scalar text (if isFolded then .quoted else .literal))

/-- The characters that cannot start a plain scalar. -/
def indicators : List Char :=
  "-?:,[]\x7b\x7d#&*!|>'\"%@\x60".toList

/-- Whether a plain scalar can start with some letters. -/
def startsPlain (inFlow : Bool) (t : List Letter) : Bool :=
  (!endsWord t && !startsIn indicators t)
    || (startsIn ['-'] t && !startsIn [' ', '\t'] (t.drop 1))
    || (!inFlow && startsIn ['?', ':'] t && !endsWord (t.drop 1))

/-- The token at the next letter. -/
def token (s : Scanner) : Option Scanner :=
  let inFlow := s.inFlow
  match s.rest with
  | [] => s.leaveBlocks.map (·.emit .streamEnd)
  | l :: rest =>
    if l.column = 0 ∧ l.char = '%' then do
      let s ← s.leaveBlocks
      let (d, rest) ← directive? rest
      return { s with rest }.emit (.directive d)
    else if isMarked '-' (l :: rest) then
      s.leaveBlocks.map fun s => (s.skip 3).emit .documentStart
    else if isMarked '.' (l :: rest) then
      s.leaveBlocks.map fun s => (s.skip 3).emit .documentEnd
    else if l.char = '[' then s.openBracket .flowSequence
    else if l.char = '\x7b' then s.openBracket .flowMapping
    else if l.char = ']' then s.closeBracket .flowSequenceEnd
    else if l.char = '\x7d' then s.closeBracket .flowMappingEnd
    else if l.char = ',' then
      s.forget.map fun s => ((s.allowKeys true).skip 1).emit .comma
    else if l.char = '-' ∧ endsWord rest then
      (s.blockMark .entry .blockSequence).map (·.allowKeys true)
    else if l.char = '?' ∧ (inFlow ∨ endsWord rest) then
      (s.blockMark .key .blockMapping).map (·.allowKeys !inFlow)
    else if l.char = ':' ∧ (inFlow ∨ endsWord rest) then s.colon
    else if l.char = '*' then
      s.word fun t => (anchor? (t.drop 1)).map fun (n, r) => (.alias n, r)
    else if l.char = '&' then
      s.word fun t => (anchor? (t.drop 1)).map fun (n, r) => (.anchor n, r)
    else if l.char = '!' then
      s.word fun t => (tag? inFlow t).map fun (n, r) => (.tag n, r)
    else if l.char = '|' ∧ !inFlow then s.blockText false
    else if l.char = '>' ∧ !inFlow then s.blockText true
    else if l.char = '\'' ∨ l.char = '"' then s.word (quotedWord l.char)
    else if startsPlain inFlow (l :: rest) then s.plainWord
    else none

/-- The scanner behind the next token. -/
def next (s : Scanner) : Option Scanner := do
  let s ← s.skipGap.dropStale
  let s ← (s.unindent s.here.column).token
  s.dropStale

/-- The tokens of a text, down to its end or to a fault. Each takes a
letter, so their number bounds the fuel. -/
def run (s : Scanner) : Nat → List Token
  | 0 => [.fault]
  | fuel + 1 =>
    match s.next with
    | none => (s.tokens.drop (s.count - s.settled)).reverse ++ [.fault]
    | some s' =>
      match s'.tokens with
      | .streamEnd :: _ => s'.tokens.reverse
      | _ => s'.run fuel

end Scanner

/-- The tokens of a text. -/
def tokens (s : String) : List Token :=
  if s.toList.all isAllowed then
    let scanner := Scanner.ofText (unifyBreaks s.toList)
    scanner.run (scanner.rest.length + 2)
  else [.fault]

end Payroll.Yaml
