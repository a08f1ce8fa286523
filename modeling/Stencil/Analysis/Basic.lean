import Stencil.Baseline.File
import Stencil.Checker.Basic
import Stencil.Dependency.Discovery
import Stencil.Dependency.Order
import Stencil.Scan.Files
import Stencil.Settings.Extension
import Stencil.Settings.Read
import Stencil.Settings.Scratch

/-! What a run is asked for and what it reports. -/
namespace Stencil.Analysis
open Compile Diagnosis Flatten

inductive Stage
  | discovery | dependencies | compilation | flattening
deriving DecidableEq, Repr

def Stage.text : Stage → String
  | discovery => "discovery"
  | dependencies => "dependencies"
  | compilation => "compilation"
  | flattening => "flattening"

/-- A problem of one template, which is left out for the rest of the run. -/
structure Issue where
  stage : Stage
  template : Option Path
  message : String
deriving DecidableEq, Repr

namespace Issue

def text (i : Issue) : String :=
  match i.template with
  | none => s!"[{i.stage.text}] {i.message}"
  | some p => s!"[{i.stage.text}] {p}: {i.message}"

def ofWarning (w : Dependency.Warning) : Issue := ⟨.dependencies, none, w.message⟩

def ofCompileError (e : CompileError) : Issue := ⟨.compilation, some e.template, e.text⟩

def ofFlattenError (e : FlattenError) : Issue :=
  ⟨.flattening, some e.template, e.obstacle.message⟩

end Issue

/-- What a run is to do. -/
structure Request where
  root : Path
  settings : Settings
  /-- The templates and directories to look at; all templates of the project if there are none. -/
  paths : List Path
  /-- Whether the first problem of a template ends the run. -/
  debug : Bool
  /-- The file that a baseline is to be written to. Then no baseline is applied. -/
  baseline : Option Path

structure Report where
  diagnostics : List Diagnostic
  issues : List Issue
  /-- The templates that were looked at up to the end. -/
  templates : List Path
  /-- The baseline that was written, with the number of diagnostics in it. -/
  baseline : Option (Path × Nat)

/-- What ends a run without a report. -/
inductive Stop
  | scratch (e : Settings.ScratchFault)
  | language (e : Settings.NoExtension)
  | scanning (f : Scan.Fault)
  | unresolved (u : Template.Unresolved)
  | undecodable
  | numeral (e : Template.NumeralError)
  | circular (e : Dependency.Circular Path)
  | compiling (e : CompileError)
  | flattening (f : Flatten.Failure)
  /-- Errors of the type checker that belong to no file. -/
  | checker (errors : List String)
  | disordered (d : Disorder)
  | noSection
  | lost (e : Baseline.Lost)
  | notWritten (e : Baseline.Unwritten)
  | notAccepted (f : Baseline.Accepted.Fault)
  | resolving (u : Files.Tree.Unresolved)
  | trouble (t : Files.Trouble)

namespace Stop

def ofHalt : Dependency.Halt → Stop
  | .undecodable => undecodable
  | .numeral e => numeral e

def ofMiss : Template.Miss → Stop
  | .unresolved u => unresolved u
  | .undecodable => undecodable

def ofUntabled : Untabled → Stop
  | .miss m => ofMiss m
  | .disorder d => disordered d

/-- The message for those who run the analysis. What they cannot be expected to run into has
none. -/
def message? : Stop → Option String
  | scratch .linkLoop => none
  | scratch e => some e.message
  | unresolved u => some u.message
  | circular e => some e.message
  | compiling e => some e.message
  | flattening (.error e) => some e.message
  | checker errors =>
    let said := "\n".intercalate errors
    some (if said == "" then "Type checker failed" else said)
  | lost e => some e.message
  | notWritten (.invalid e) | notAccepted (.invalid e) => some e.message
  | language _ | scanning _ | undecodable | numeral _ | flattening _ | disordered _ | noSection
  | notWritten _ | notAccepted _ | resolving _ | trouble _ => none

end Stop

end Stencil.Analysis
