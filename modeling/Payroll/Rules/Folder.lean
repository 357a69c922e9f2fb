/-
Rule folders. A folder holds one text about the jurisdiction and, in a
folder of its own, one text for each rule snapshot; a change of the law
is a new file. Only files with the extension `yaml` count, and one
whose name is a date has to hold the rules of that date.

`load` is given the two decoders, so what is said about it holds of any
format. `loadYaml` is `load` for the format that the rules are written
in.
-/
import Payroll.Document.Rules
import Payroll.Yaml.Stream

namespace Payroll

/-- The texts of a rule folder, as far as they exist. -/
structure RuleFolder where
  /-- Where the folder is. -/
  path : String
  jurisdiction : Option String
  /-- The rule files with their names, in the order of the listing. -/
  rules : Option (List (String × String))

namespace RuleFolder

/-- A file name up to its last dot, and what follows that dot. A dot in
front does not count. -/
def splitName (name : String) : String × Option String :=
  let reversed := name.toList.reverse
  let behind := (reversed.takeWhile (· != '.')).reverse
  match reversed.dropWhile (· != '.') with
  | _ :: c :: stem =>
    (String.ofList (c :: stem).reverse, some (String.ofList behind))
  | _ => (name, none)

/-- Whether a file holds rules. -/
def isRuleFile (name : String) : Bool := (splitName name).2 == some "yaml"

/-- A text that was decoded, or the file that could not be. -/
def decoded {α : Type} (path : String) : Read α → Except Failure α
  | .ok a => .ok a
  | .error .illTyped =>
    .error (.error (.configUnreadable path .undecodable))
  | .error (.malformed defect) =>
    .error (.error (.configUnreadable path (.malformedTable defect)))
  | .error (.crash c) => .error (.crash c)

/-- The snapshot of one rule file. -/
def loadFile (decode : String → Read Snapshot) (folder name text : String) :
    Except Failure Snapshot := do
  let path := s!"{folder}/{name}"
  let snapshot ← decoded path (decode text)
  match Date.ofStem? (splitName name).1 with
  | some named =>
    if named = snapshot.effectiveDate then .ok snapshot
    else
      .error (.error (.configUnreadable path
        (.misdated named snapshot.effectiveDate)))
  | none => .ok snapshot

/-- The rule book of a folder. -/
def load (decodeJurisdiction : String → Read Jurisdiction)
    (decodeSnapshot : String → Read Snapshot) (folder : RuleFolder) :
    Except Failure RuleBook := do
  let path := s!"{folder.path}/jurisdiction.yaml"
  let rulesPath := s!"{folder.path}/rules"
  match folder.jurisdiction with
  | none => .error (.error (.configNotFound path))
  | some text =>
    let jurisdiction ← decoded path (decodeJurisdiction text)
    match folder.rules with
    | none => .error (.error (.configNotFound rulesPath))
    | some files =>
      let snapshots ← (files.filter (isRuleFile ·.1)).mapM fun f =>
        loadFile decodeSnapshot rulesPath f.1 f.2
      if snapshots.isEmpty then
        .error (.error
          (.configNotFound s!"{rulesPath} (no rule files found)"))
      else RuleBook.ofSnapshots jurisdiction snapshots

/-- Decodes a text and reads a value out of it. A text may hold only one
document. -/
def fromYaml {α : Type} (read : Document → Read α) (text : String) :
    Read α := do
  let stream := Yaml.Stream.ofText text
  let a ← read stream.root
  if stream.isComplete then .ok a else .error .illTyped

/-- The rule book of a folder written in YAML. -/
def loadYaml (folder : RuleFolder) : Except Failure RuleBook :=
  folder.load (fromYaml Jurisdiction.ofDocument)
    (fromYaml Snapshot.ofDocument)

end RuleFolder

end Payroll
