/-
Documents in a YAML text. `Stream.ofText` gives the first document of a
text, and says whether the text is complete behind it.

A text may be broken, and what stands in front of the break still
counts. So each parser gives what it has read together with the state
behind it, which is missing behind a break; there every list and map
that is still open ends in an unreadable entry. An entry whose key is
no scalar is unreadable as well.

A value with an anchor stands wherever its name is given again. Inside
of itself it cannot be read.
-/
import Payroll.Document.Basic
import Payroll.Yaml.Token

namespace Payroll.Yaml

open Document (Entries)

/-- What is left of a text, and what its names stand for. -/
structure State where
  tokens : List Token
  /-- The values with anchors in the order of the text. -/
  anchors : List (String × Document)
  handles : Handles

/-- What was read, and the state behind it unless the text is broken
there. -/
structure Parsed (α : Type) where
  found : α
  behind : Option State

-- ============================================================= properties

/-- What is noted in front of a value. -/
structure Properties where
  anchor : Option String
  tag : Option TagName

/-- An anchor and a tag in either order, as far as they are there. -/
def properties : List Token → Properties × List Token
  | .anchor a :: .tag t :: rest => ({ anchor := a, tag := t }, rest)
  | .tag t :: .anchor a :: rest => ({ anchor := a, tag := t }, rest)
  | .anchor a :: rest => ({ anchor := a, tag := none }, rest)
  | .tag t :: rest => ({ anchor := none, tag := t }, rest)
  | rest => ({ anchor := none, tag := none }, rest)

namespace State

/-- The state with other tokens left. -/
def goTo (s : State) (tokens : List Token) : State := { s with tokens }

/-- The value that a name stands for: the latest that has it. -/
def aliased? (s : State) (name : String) : Option Document :=
  s.anchors.reverse.lookup name

/-- What a tag comes to, if there is one. -/
def resolve? (s : State) : Option TagName → Option (Option Tag)
  | some t => (s.handles.resolve? t).map some
  | none => some none

/-- Gives a name to a value that is not read yet. -/
def named (s : State) : Option String → State
  | some name =>
    { s with anchors := s.anchors ++ [(name, .table [("", .unreadable)])] }
  | none => s

/-- Notes the value that was named as the `slot`-th. -/
def noted (s : State) (slot : Nat) (anchor : Option String)
    (d : Document) : State :=
  match anchor with
  | some name => { s with anchors := s.anchors.set slot (name, d) }
  | none => s

end State

-- ================================================================== parts

/-- A value that was left out. -/
def nothing : Document := .scalar .empty

def entryOf (key value : Document) : String × Document :=
  match key with
  | .scalar s => (s.text, value)
  | _ => ("", .unreadable)

namespace Parsed

/-- An item, and the items behind it. -/
def followedBy (item : Parsed Document)
    (more : State → Parsed (List Document)) : Parsed (List Document) :=
  match item with
  | ⟨d, none⟩ => ⟨[d, .unreadable], none⟩
  | ⟨d, some s⟩ =>
    let rest := more s
    ⟨d :: rest.found, rest.behind⟩

/-- A key and its value, and the entries behind them. -/
def keyedBy (key : Parsed Document) (value : State → Parsed Document)
    (more : State → Parsed Entries) : Parsed Entries :=
  match key with
  | ⟨_, none⟩ => ⟨[("", .unreadable)], none⟩
  | ⟨k, some s⟩ =>
    match value s with
    | ⟨v, none⟩ => ⟨[entryOf k v, ("", .unreadable)], none⟩
    | ⟨v, some s⟩ =>
      let rest := more s
      ⟨entryOf k v :: rest.found, rest.behind⟩

/-- The entries of a map as a value. -/
def asTable (entries : Parsed Entries) : Parsed Document :=
  ⟨.table entries.found, entries.behind⟩

/-- The items of a list as a value. -/
def asSequence (items : Parsed (List Document)) : Parsed Document :=
  ⟨.sequence items.found, items.behind⟩

end Parsed

/-- Whether an item of a block list is left out before some tokens. -/
def endsItem : List Token → Bool
  | .entry :: _ | .key :: _ | .value :: _ | .blockEnd :: _ => true
  | _ => false

/-- Whether a part of a block map is left out before some tokens. -/
def endsField : List Token → Bool
  | .key :: _ | .value :: _ | .blockEnd :: _ => true
  | _ => false

/-- Whether a value between brackets is left out before some tokens. -/
def endsFlow : List Token → Bool
  | .comma :: _ | .flowSequenceEnd :: _ | .flowMappingEnd :: _ => true
  | _ => false

/-- Whether a key between brackets is left out before some tokens. -/
def endsFlowKey : List Token → Bool
  | .value :: _ => true
  | tokens => endsFlow tokens

/-- What follows the comma that has to stand between brackets, except in
front of the first part and of the closing one. -/
def separated? (isFirst : Bool) : List Token → Option (List Token)
  | .comma :: rest => if isFirst then some (.comma :: rest) else some rest
  | tokens => if isFirst || endsFlow tokens then some tokens else none

-- ================================================================== nodes

mutual

/-- A value. A list may stand in the place of one that belongs to a key
of a block map without being indented further: `isField`. -/
def node (fuel : Nat) (inBlock isField : Bool) (s : State) :
    Parsed Document :=
  match fuel, s.tokens with
  | 0, _ => ⟨.unreadable, none⟩
  | _, .alias name :: rest =>
    match s.aliased? name with
    | some d => ⟨d, some (s.goTo rest)⟩
    | none => ⟨.unreadable, none⟩
  | fuel + 1, tokens =>
    let (p, rest) := properties tokens
    match s.resolve? p.tag with
    | none => ⟨.unreadable, none⟩
    | some tag =>
      let isBare := p.anchor.isNone && tag.isNone
      let value :=
        content fuel inBlock isField isBare tag ((s.named p.anchor).goTo rest)
      ⟨value.found,
        value.behind.map (·.noted s.anchors.length p.anchor value.found)⟩

/-- A value behind its properties. It may be left out unless it is
bare. A lone exclamation mark is no tag of a scalar. -/
def content (fuel : Nat) (inBlock isField isBare : Bool)
    (tag : Option Tag) (s : State) : Parsed Document :=
  match fuel, s.tokens with
  | _ + 1, .scalar text style :: rest =>
    let tag := tag.filter (· != .own "!")
    ⟨.scalar { text, style, tag }, some (s.goTo rest)⟩
  | fuel + 1, .flowSequence :: rest =>
    (flowItems fuel true (s.goTo rest)).asSequence
  | fuel + 1, .flowMapping :: rest =>
    (flowEntries fuel true (s.goTo rest)).asTable
  | fuel + 1, tokens =>
    match inBlock, isField, tokens with
    | true, _, .blockSequence :: rest =>
      (blockItems fuel true (s.goTo rest)).asSequence
    | true, _, .blockMapping :: rest =>
      (blockEntries fuel (s.goTo rest)).asTable
    | _, true, .entry :: _ => (blockItems fuel false s).asSequence
    | _, _, .fault :: _ => ⟨.unreadable, none⟩
    | _, _, _ =>
      if isBare then ⟨.unreadable, none⟩
      else ⟨.scalar { text := "", style := .plain, tag }, some s⟩
  | 0, _ => ⟨.unreadable, none⟩

/-- The value behind a key, if there is one. -/
def fieldValue (fuel : Nat) (inBlock : Bool) (ends : List Token → Bool)
    (s : State) : Parsed Document :=
  match fuel, s.tokens with
  | fuel + 1, .value :: rest =>
    if ends rest then ⟨nothing, some (s.goTo rest)⟩
    else node fuel inBlock inBlock (s.goTo rest)
  | _ + 1, .fault :: _ => ⟨.unreadable, none⟩
  | _ + 1, _ => ⟨nothing, some s⟩
  | 0, _ => ⟨.unreadable, none⟩

/-- The items of a block list. One that is not indented ends before the
first token that is no dash. -/
def blockItems (fuel : Nat) (isIndented : Bool) (s : State) :
    Parsed (List Document) :=
  match fuel, s.tokens with
  | fuel + 1, .entry :: rest =>
    let item :=
      if endsItem rest then ⟨nothing, some (s.goTo rest)⟩
      else node fuel true false (s.goTo rest)
    item.followedBy fun s => blockItems fuel isIndented s
  | _ + 1, .fault :: _ => ⟨[.unreadable], none⟩
  | _ + 1, .blockEnd :: rest =>
    ⟨[], some (if isIndented then s.goTo rest else s)⟩
  | _ + 1, _ =>
    if isIndented then ⟨[.unreadable], none⟩ else ⟨[], some s⟩
  | 0, _ => ⟨[.unreadable], none⟩

/-- The entries of a block map. -/
def blockEntries (fuel : Nat) (s : State) : Parsed Entries :=
  match fuel, s.tokens with
  | fuel + 1, .key :: rest =>
    let key :=
      if endsField rest then ⟨nothing, some (s.goTo rest)⟩
      else node fuel true true (s.goTo rest)
    key.keyedBy (fun s => fieldValue fuel true endsField s)
      fun s => blockEntries fuel s
  | _ + 1, .blockEnd :: rest => ⟨[], some (s.goTo rest)⟩
  | _, _ => ⟨[("", .unreadable)], none⟩

/-- The items of a list in brackets. One with a key is a map of its
own. -/
def flowItems (fuel : Nat) (isFirst : Bool) (s : State) :
    Parsed (List Document) :=
  match fuel, separated? isFirst s.tokens with
  | _ + 1, some (.flowSequenceEnd :: rest) => ⟨[], some (s.goTo rest)⟩
  | fuel + 1, some (.key :: rest) =>
    (flowPair fuel (s.goTo rest)).followedBy fun s => flowItems fuel false s
  | fuel + 1, some tokens =>
    (node fuel false false (s.goTo tokens)).followedBy
      fun s => flowItems fuel false s
  | _, _ => ⟨[.unreadable], none⟩

/-- A map of one entry in the place of an item. Where its key is left
out, the mark in its place counts as the key. -/
def flowPair (fuel : Nat) (s : State) : Parsed Document :=
  match fuel with
  | fuel + 1 =>
    let key :=
      if endsFlowKey s.tokens then
        ⟨nothing, some (s.goTo (s.tokens.drop 1))⟩
      else node fuel false false s
    (key.keyedBy (fun s => fieldValue fuel false endsFlow s)
      fun s => ⟨[], some s⟩).asTable
  | 0 => ⟨.unreadable, none⟩

/-- The entries of a map in brackets. One without a mark is a key
alone. -/
def flowEntries (fuel : Nat) (isFirst : Bool) (s : State) :
    Parsed Entries :=
  match fuel, separated? isFirst s.tokens with
  | _ + 1, some (.flowMappingEnd :: rest) => ⟨[], some (s.goTo rest)⟩
  | fuel + 1, some (.key :: rest) =>
    let key :=
      if endsFlowKey rest then ⟨nothing, some (s.goTo rest)⟩
      else node fuel false false (s.goTo rest)
    key.keyedBy (fun s => fieldValue fuel false endsFlow s)
      fun s => flowEntries fuel false s
  | fuel + 1, some tokens =>
    (node fuel false false (s.goTo tokens)).keyedBy
      (fun s => ⟨nothing, some s⟩) fun s => flowEntries fuel false s
  | _, _ => ⟨[("", .unreadable)], none⟩

end

-- ============================================================== documents

/-- The first document of a text. -/
structure Stream where
  root : Document
  /-- Whether nothing but the end of the text stands behind it. -/
  isComplete : Bool

namespace Stream

/-- Reads directives. Only two versions of the format are known, and
a version is given at most once. -/
def directives? (hasVersion : Bool) (handles : Handles) :
    List Token → Option (Handles × List Token)
  | .directive (.version major minor) :: rest =>
    if !hasVersion && major == 1 && (minor == 1 || minor == 2) then
      directives? true handles rest
    else none
  | .directive (.handle name meaning) :: rest => do
    directives? hasVersion (← handles.add? name meaning) rest
  | tokens => some (handles, tokens)

/-- Whether a document is left out before some tokens. -/
def endsDocument : List Token → Bool
  | .directive _ :: _ | .documentStart :: _ | .documentEnd :: _
  | .streamEnd :: _ => true
  | _ => false

/-- The tokens of a document. Directives and a mark may stand in front
of it, and without them it is left out only where the text ends. -/
def start? (tokens : List Token) : Option (Bool × State) :=
  match directives? false [] tokens with
  | some (handles, .documentStart :: rest) =>
    some (endsDocument rest, { tokens := rest, anchors := [], handles })
  | _ =>
    match tokens with
    | .directive _ :: _ => none
    | .streamEnd :: _ =>
      some (true, { tokens, anchors := [], handles := [] })
    | _ => some (false, { tokens, anchors := [], handles := [] })

/-- Whether nothing follows a document but marks of its end. -/
def isEnd : List Token → Bool
  | .documentEnd :: rest => isEnd rest
  | .streamEnd :: _ => true
  | _ => false

/-- The first document among some tokens. Each of them takes a few steps
at most, so their number bounds the fuel. -/
def ofTokens (tokens : List Token) : Stream :=
  match start? tokens with
  | none => { root := .unreadable, isComplete := false }
  | some (isLeftOut, s) =>
    let document :=
      if isLeftOut then ⟨nothing, some s⟩
      else node (6 * tokens.length + 8) true false s
    { root := document.found
      isComplete := document.behind.any fun s => isEnd s.tokens }

def ofText (s : String) : Stream := ofTokens (Yaml.tokens s)

end Stream

end Payroll.Yaml
