import Stencil.Checker.Basic
import Stencil.Checker.Message
import Stencil.Collect.Record
import Stencil.Files.Text
import Stencil.Settings.Basic

/-! How mypy is run as the type checker, and what its output means. -/
namespace Stencil.Checker
open Diagnosis Observed

/-- What is known before mypy runs: the root of the project, a directory for its files, and the
settings. -/
structure Mypy where
  root : Path
  directory : Path
  settings : CheckerSettings

/-- One run of the program. -/
structure Invocation where
  command : List String
  directory : Path
  /-- The file that records are to be written to, and the functions that render templates. -/
  collecting : Option (Path × String)

/-- How a run ended. -/
inductive Outcome
  | notStarted (why : String)
  | ended (output errors : String) (status : Int)

/-- The lines of a text that are not blank, without the blanks at their ends. -/
def spokenLines (s : String) : List String :=
  ((Text.linesOf s.toList).filter fun l => !l.all Text.isBlank).map fun l =>
    String.ofList (Text.dropEndWhile Text.isBlank l)

/-- The messages of a run, and its errors that belong to no file. There are such errors if the
program could not be started or says by its status that it gave up. -/
def Outcome.read : Outcome → List Message × List String
  | notStarted why => ([], ["Unable to run mypy: " ++ why])
  | ended output errors status =>
    let lines := Text.lines output
    let messages := lines.filterMap Message.ofLine?
    if status < 2 then (messages, [])
    else
      let other := (lines.filter fun l => (Message.ofLine? l).isNone).flatMap spokenLines
      match other ++ spokenLines errors with
      | [] => (messages, [s!"mypy exited with status {status}"])
      | said => (messages, said)

namespace Mypy

variable (m : Mypy)

def configFile : Path := m.directory.child "mypy.ini"

def collectFile : Path := m.directory.child "collected.jsonl"

def configText : String :=
  "[mypy]\nplugins = typecheck.plugin\nfollow_imports = silent\nwarn_unused_ignores = False\n" ++
    "warn_unused_configs = False\n"

def command (files : List Path) : List String :=
  [m.settings.executable.getD "python3", "-m", "mypy", "--config-file", m.configFile.text,
    "--output", "json", "--no-error-summary", "--no-incremental"] ++ m.settings.extraArgs ++
    files.map (·.text)

def collecting (files : List Path) : Invocation :=
  ⟨m.command files, m.root, some (m.collectFile, ",".intercalate m.settings.renderFunctions)⟩

def analyzing (files : List Path) : Invocation := ⟨m.command files, m.root, none⟩

/-- Writes the file that tells mypy what to do. -/
def writeConfig (t : Files.Tree) : Except Files.Trouble Files.Tree := do
  let t ← t.makeDirs m.directory.parts
  (t.writeText m.configFile configText).mapError (·.trouble)

/-- The same for a run that collects records; those of an earlier run are removed. -/
def writeCollecting (t : Files.Tree) : Except Files.Trouble Files.Tree := do
  let t ← t.makeDirs m.directory.parts
  m.writeConfig (t.removeFile m.collectFile.parts)

/-- What a record says, its file resolved. -/
def resolveRecord (t : Files.Tree) (r : Collect.Record) :
    Except Files.Tree.Unresolved (RenderCall ⊕ Observation) := do
  let file ← resolveFrom t m.root r.file
  return match r.passed with
  | none => .inl ⟨r.template, file, r.line⟩
  | some vs => .inr ⟨r.template, file, r.line, vs⟩

/-- What a run collected, with the lines that hold no record. -/
def collection (t : Files.Tree) (o : Outcome) :
    Except Files.Tree.Unresolved (Collection × List (Nat × Collect.BadLine)) := do
  let (_, errors) := o.read
  if !errors.isEmpty then return (⟨[], [], errors⟩, [])
  match t.readBytes m.collectFile with
  | .error _ => return (⟨[], [], []⟩, [])
  | .ok bytes =>
    let (records, bad) :=
      Collect.decode ((Collect.byteLines bytes.toList).map fun l => ⟨l.toArray⟩)
    let found ← records.mapM (m.resolveRecord t)
    return (⟨found.filterMap Sum.getLeft?, found.filterMap Sum.getRight?, []⟩, bad)

/-- What a run found. -/
def analysis (t : Files.Tree) (o : Outcome) : Except Files.Tree.Unresolved Analysis := do
  let (messages, errors) := o.read
  if !errors.isEmpty then return ⟨[], errors⟩
  return ⟨← findingsFrom t m.root messages, []⟩

end Mypy

end Stencil.Checker
