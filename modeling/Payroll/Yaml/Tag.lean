/-
Anchors, tags and directives: what a YAML text says about its values
rather than in them.

A tag is a handle and a suffix. The handle `!` is the writer's own and
`!!` that of the core schema, unless a directive gives them another
meaning; a tag between angle brackets has none. What a tag comes to is
said by `Handles.resolve?`.
-/
import Payroll.Document.Scalar
import Payroll.Yaml.Letter

namespace Payroll.Yaml

def charsOf (t : List Letter) : List Char := t.map (·.char)

-- ================================================================== names

/-- The name of an anchor, and what follows it. -/
def anchor? (t : List Letter) : Option (String × List Letter) :=
  let name := t.takeWhile (·.isName)
  let rest := t.dropWhile (·.isName)
  let ends := endsWord rest
    || startsIn ['?', ':', ',', ']', '\x7d', '%', '@', '\x60'] rest
  if name.isEmpty || !ends then none
  else some (String.ofList (charsOf name), rest)

/-- The letters that the rest of a tag is made of. Between angle
brackets, or in a directive, some more may stand. -/
def isTagLetter (isFree : Bool) (l : Letter) : Bool :=
  l.isName || ";/?:@&=+$.!~*'()%".toList.contains l.char
    || (isFree && [',', '[', ']'].contains l.char)

/-- The bytes of a text in which some are written in hexadecimal behind
a percent sign. -/
def unescape? : List Char → Option (List UInt8)
  | [] => some []
  | '%' :: rest =>
    match rest with
    | a :: b :: rest => do
      let byte ← Scalar.readBase? 16 [a, b]
      return UInt8.ofNat byte :: (← unescape? rest)
    | _ => none
  | c :: rest => do return UInt8.ofNat c.toNat :: (← unescape? rest)

/-- A part of a tag, and what follows it. -/
def tagPart? (isFree : Bool) (t : List Letter) :
    Option (String × List Letter) := do
  let bytes ← unescape? (charsOf (t.takeWhile (isTagLetter isFree)))
  let text ← String.fromUTF8? (ByteArray.mk bytes.toArray)
  return (text, t.dropWhile (isTagLetter isFree))

/-- A part of a tag that is not empty. -/
def filledPart? (isFree : Bool) (t : List Letter) :
    Option (String × List Letter) :=
  (tagPart? isFree t).filter fun p => !p.1.isEmpty

-- =================================================================== tags

/-- A tag as written. Without a handle it is its suffix. -/
structure TagName where
  handle : String
  suffix : String

/-- An exclamation mark with the name behind it, the mark that may end
a handle, and what follows. -/
def handle (t : List Letter) : List Char × List Letter :=
  let name := charsOf ((t.drop 1).takeWhile (·.isName))
  let rest := (t.drop 1).dropWhile (·.isName)
  if startsIn ['!'] rest then ('!' :: name ++ ['!'], rest.drop 1)
  else ('!' :: name, rest)

/-- Whether a mark ends a handle as well as starting it. -/
def isClosed (handle : List Char) : Bool :=
  1 < handle.length && handle.getLast? == some '!'

/-- A tag without regard to what follows it. A lone exclamation mark is
no handle. -/
def tagName? (t : List Letter) : Option (TagName × List Letter) :=
  if startsIn ['<'] (t.drop 1) then do
    let (suffix, rest) ← filledPart? true (t.drop 2)
    if startsIn ['>'] rest then
      some ({ handle := "", suffix }, rest.drop 1)
    else none
  else do
    let (first, behind) := handle t
    if isClosed first then do
      let (suffix, rest) ← filledPart? false behind
      return ({ handle := String.ofList first, suffix }, rest)
    else do
      let (more, rest) ← tagPart? false behind
      let suffix := String.ofList (first.drop 1) ++ more
      if suffix.isEmpty then return ({ handle := "", suffix := "!" }, rest)
      else return ({ handle := "!", suffix }, rest)

/-- A tag from its exclamation mark on, and what follows it. -/
def tag? (inFlow : Bool) (t : List Letter) :
    Option (TagName × List Letter) := do
  let (name, rest) ← tagName? t
  if endsWord rest || (inFlow && startsIn [','] rest) then
    some (name, rest)
  else none

-- ============================================================= directives

/-- What a text says about its next document: the version of the format
that it keeps to, or what a handle stands for. -/
inductive Directive where
  | version (major minor : Nat)
  | handle (name meaning : String)

/-- A number of at most nine digits. -/
def versionPart? (t : List Letter) : Option (Nat × List Letter) := do
  let digits := charsOf (t.takeWhile (·.char.isDigit))
  if 9 < digits.length then none
  else some (← Text.readDigits digits, t.dropWhile (·.char.isDigit))

def version? (t : List Letter) : Option (Directive × List Letter) := do
  let (major, rest) ← versionPart? t
  if startsIn ['.'] rest then
    let (minor, rest) ← versionPart? (rest.drop 1)
    return (.version major minor, rest)
  else none

def handleMeaning? (t : List Letter) : Option (Directive × List Letter) := do
  let (name, behind) := handle t
  if !startsIn ['!'] t || (name != ['!'] && !isClosed name) then none
  else if !startsIn [' ', '\t'] behind then none
  else
    let (meaning, rest) ←
      filledPart? true (behind.dropWhile (·.isBlank))
    if endsWord rest then
      return (.handle (String.ofList name) meaning, rest)
    else none

/-- A directive behind its percent sign, and the lines behind it. -/
def directive? (t : List Letter) : Option (Directive × List Letter) := do
  let name := charsOf (t.takeWhile (·.isName))
  let behind := t.dropWhile (·.isName)
  let value := behind.dropWhile (·.isBlank)
  if !endsWord behind then none
  else
    let (d, rest) ←
      if name = "YAML".toList then version? value
      else if name = "TAG".toList then handleMeaning? value
      else none
    return (d, ← restOfLine? rest)

-- ================================================================ meaning

/-- What the handles stand for that directives name. -/
abbrev Handles := List (String × String)

namespace Handles

/-- The tag of a text: one that starts with an exclamation mark is the
writer's own. -/
def tagOf (text : String) : Tag :=
  match text.toList with
  | '!' :: c :: rest => .own (String.ofList (c :: rest))
  | ['!'] => .own "!"
  | _ => .other

/-- What a tag comes to, if its handle is known. -/
def resolve? (handles : Handles) (t : TagName) : Option Tag :=
  if t.handle.isEmpty then some (tagOf t.suffix)
  else
    match handles.lookup t.handle with
    | some meaning => some (tagOf (meaning ++ t.suffix))
    | none =>
      if t.handle = "!" then some (.own t.suffix)
      else if t.handle = "!!" then some (.core t.suffix)
      else none

/-- The handles with one more directive. A handle cannot be given two
meanings. -/
def add? (handles : Handles) (name meaning : String) : Option Handles :=
  if (handles.lookup name).isSome then none
  else some ((name, meaning) :: handles)

end Handles

end Payroll.Yaml
