import Stencil.Baseline.Basic
import Stencil.Data.Check
import Stencil.Data.Json
import Stencil.Data.JsonText
import Stencil.Files.Text

/-! Baselines in files: JSON with sorted keys. The diagnostics of a baseline are left out. -/
namespace Stencil.Baseline
open Data Diagnosis

/-- What a file holds. -/
structure Document where
  version : Int
  entries : List Entry
deriving DecidableEq, Repr

def currentVersion : Int := 1

def suffix : String := ".json"

namespace Entry

def fields : List String := ["message", "identifier", "template_path", "count"]

def check : Value → Checked Entry
  | .table t =>
    let message := Fields.required t "message" Value.asString
    let identifier := Fields.optional t "identifier" none (Value.asNullable Value.asString)
    let template := Fields.required t "template_path" Value.asString
    let count := Fields.required t "count" (Value.asIntAtLeast 1)
    let c := Checked.both (.ok fun m i p n (_ : Unit) => (⟨m, i, p, Int.toNat n⟩ : Entry)) message
    .both (.both (.both (.both c identifier) template) count) (Fields.closed t fields)
  | _ => .fail .modelType

def toValue (e : Entry) : Value := .table [
  ("message", .str e.message), ("identifier", e.identifier.elim .null .str),
  ("template_path", .str e.template), ("count", .int e.count)]

end Entry

namespace Document

def fields : List String := ["schema_version", "errors"]

def check : Value → Checked Document
  | .table t =>
    let version := Fields.optional t "schema_version" currentVersion Value.asInt
    let entries := Fields.optional t "errors" [] (Value.asList Entry.check)
    .both (.both (.both (.ok fun v es (_ : Unit) => ⟨v, es⟩) version) entries)
      (Fields.closed t fields)
  | _ => .fail .modelType

def toValue (d : Document) : Value := .table [
  ("schema_version", .int d.version), ("errors", .list (d.entries.map Entry.toValue))]

def text (d : Document) : String := Json.pretty 0 d.toValue ++ "\n"

end Document

/-- Why a file is no baseline. -/
inductive Invalid
  | badSuffix (file : Path)
  | unreadable (file : Path) (failure : Files.Failure)
  | badJson (file : Path)
  | badFields (file : Path) (issues : List Issue)

def Invalid.message : Invalid → String
  | badSuffix p => s!"Baseline file must have {suffix} extension: {p}"
  | unreadable p f => s!"Unable to read baseline {p}: {f.message}"
  | badJson p => s!"Invalid JSON in baseline {p}"
  | badFields p _ => s!"Invalid baseline {p}"

def checkSuffix (file : Path) : Except Invalid Unit :=
  if file.suffix = suffix then .ok () else .error (.badSuffix file)

def load (t : Files.Tree) (file : Path) : Except Invalid Document := do
  checkSuffix file
  let bytes ← (t.readBytes file).mapError (.unreadable file)
  match Json.decode? bytes with
  | none => .error (.badJson file)
  | some v => (Document.check v).mapError (.badFields file)

/-- Why a baseline is not written. -/
inductive Unwritten
  | invalid (e : Invalid)
  | trouble (trouble : Files.Trouble)
  /-- A count does not fit into 64 bits. -/
  | wideCount

/-- Writes a baseline; the directories of the file are made. -/
def dump (file : Path) (entries : List Entry) : ExceptT Unwritten (StateM Files.Tree) Unit := do
  match checkSuffix file with
  | .error e => throw (.invalid e)
  | .ok () =>
    match (← get).makeDirs file.parent.parts with
    | .error e => throw (.trouble e)
    | .ok t =>
      set t
      if entries.all fun e => Json.intFits e.count then
        match t.writeText file (Document.mk currentVersion entries).text with
        | .error f => throw (.trouble f.trouble)
        | .ok t => set t
      else throw .wideCount

/-! Leaving out the diagnostics of a baseline. -/

/-- What diagnostics have in common that an entry of a baseline stands for. -/
structure Signature where
  message : String
  identifier : Option String
  template : Path
deriving DecidableEq, Repr

/-- The diagnostics that are accepted. How many there are of a kind does not matter. -/
structure Accepted where
  signatures : List Signature

namespace Accepted

def none : Accepted := ⟨[]⟩

def size (a : Accepted) : Nat := a.signatures.length

/-- Why there is nothing to compare with. -/
inductive Fault
  | invalid (e : Invalid)
  | resolving (e : Files.Tree.Unresolved)

/-- The signature of an entry of a baseline in the directory. -/
def signature (t : Files.Tree) (directory : Path) (e : Entry) : Except Fault Signature :=
  match t.resolve false (directory.join (Path.ofString e.template)).parts with
  | .ok p => .ok ⟨e.message, e.identifier, ⟨true, p⟩⟩
  | .error u => .error (.resolving u)

/-- What a file accepts. -/
def ofFile (t : Files.Tree) (file : Path) : Except Fault Accepted := do
  let d ← (load t file).mapError .invalid
  return ⟨(← d.entries.mapM (signature t file.parent)).eraseDups⟩

/-- Holds of diagnostics that can be suppressed and are accepted. -/
def covers (a : Accepted) (d : Diagnostic) : Bool :=
  d.suppressible && d.template.any fun p => a.signatures.contains ⟨d.message, d.identifier, p⟩

def filter (a : Accepted) (ds : List Diagnostic) : List Diagnostic := ds.filter fun d => !a.covers d

end Accepted

end Stencil.Baseline
