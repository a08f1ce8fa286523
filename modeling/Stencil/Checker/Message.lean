import Stencil.Data.Check
import Stencil.Data.Json
import Stencil.Diagnosis.Basic
import Stencil.Files.Tree
import Stencil.Text.Blank

/-! What a type checker prints: JSON messages, one on a line, among other text. -/
namespace Stencil.Checker
open Data Diagnosis

structure Message where
  file : String
  line : Int
  column : Option Int
  text : String
  hint : Option String
  code : Option String
  severity : String
deriving DecidableEq, Repr

namespace Message

def severities : List String := ["error", "note", "warning"]

def check : Value → Checked Message
  | .table t =>
    let nullable := fun name => Fields.optional t name none (Value.asNullable Value.asString)
    let column := Fields.optional t "column" none (Value.asNullable Value.asInt)
    let severity := Fields.optional t "severity" "error" (Value.asWord severities)
    let c := Checked.both (.ok Message.mk) (Fields.required t "file" Value.asString)
    let c := Checked.both (.both c (Fields.required t "line" Value.asInt)) column
    let c := Checked.both (.both c (Fields.required t "message" Value.asString)) (nullable "hint")
    .both (.both c (nullable "code")) severity
  | _ => .fail .modelType

/-- The message on a line, if it is one. -/
def ofLine? (line : String) : Option Message :=
  match Text.trimBlanks line.toList with
  | '{' :: cs => (Json.parse? .toFloat (String.ofList ('{' :: cs))).bind fun v => (check v).toOption
  | _ => none

/-- Holds of messages that only say more about another one. -/
def isNote (m : Message) : Bool := m.severity = "note"

end Message

/-- Adds a message about a file to the findings, the newest of which comes first. A note goes to the
tip of the newest finding if it is about the same line, and is dropped otherwise. -/
def addMessage (findings : List Finding) (file : Path) (m : Message) : List Finding :=
  if m.isNote then
    match findings with
    | f :: fs =>
      if f.file = file ∧ f.line = m.line then
        { f with tip := some (f.tip.elim m.text (· ++ "\n" ++ m.text)) } :: fs
      else f :: fs
    | [] => []
  else ⟨file, m.line, m.text, m.code, m.hint, true⟩ :: findings

/-- The findings of messages whose files are known. -/
def findingsOf (messages : List (Path × Message)) : List Finding :=
  (messages.foldl (fun done e => addMessage done e.1 e.2) []).reverse

/-- A file as a message or record names it, from the root of the project on. -/
def resolveFrom (t : Files.Tree) (root : Path) (file : String) :
    Except Files.Tree.Unresolved Path :=
  (t.resolve false (root.join (Path.ofString file)).parts).map fun p => ⟨true, p⟩

/-- The findings of messages, their files resolved. -/
def findingsFrom (t : Files.Tree) (root : Path) (messages : List Message) :
    Except Files.Tree.Unresolved (List Finding) := do
  let located ← messages.mapM fun m => do return (← resolveFrom t root m.file, m)
  return findingsOf located

end Stencil.Checker
