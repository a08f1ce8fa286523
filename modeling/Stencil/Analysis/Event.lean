import Stencil.Diagnosis.Basic
import Stencil.Flatten.Unit

/-! What a run says while it works. -/
namespace Stencil.Analysis
open Compile Diagnosis Flatten

inductive Severity
  | debug | info | warning
deriving DecidableEq, Repr

inductive Event
  | noTemplates
  | following (templates : Nat)
  | followed (templates warnings : Nat)
  | foundDependencies (count : Nat)
  | compiling (templates : Nat)
  | compiled (template file : Path)
  | notCompiled (e : CompileError)
  | flattening (templates : Nat)
  | flattened (template file : Path)
  | notFlattened (e : FlattenError)
  | collecting
  | unknownCall (template : String)
  | injecting
  | unknownObservation (template : String)
  | injected (declarations : Nat) (file : Path)
  | noneLeft
  | analyzing (templates : Nat)
  | dropped (finding : Finding)
  | baselineWritten (entries : Nat) (file : Path)
  | baselineGenerated (count : Nat) (file : Path)

namespace Event

def severity : Event → Severity
  | followed .. | compiled .. | flattened .. | unknownCall .. | unknownObservation .. | injected ..
  | dropped .. | baselineWritten .. => .debug
  | noTemplates | notCompiled .. | notFlattened .. | noneLeft => .warning
  | following .. | foundDependencies .. | compiling .. | flattening .. | collecting | injecting
  | analyzing .. | baselineGenerated .. => .info

def text : Event → String
  | noTemplates => "No templates found"
  | following n => s!"Finding dependencies for {n} templates..."
  | followed n warnings => s!"Dependency graph: {n} templates, {warnings} warnings"
  | foundDependencies 1 => "Found 1 dependency..."
  | foundDependencies n => s!"Found {n} dependencies..."
  | compiling n => s!"Compiling {n} templates..."
  | compiled template file => s!"Compiled {template} -> {file}"
  | notCompiled e => s!"Error compiling {e.message}"
  | flattening n => s!"Flattening {n} templates..."
  | flattened template file => s!"Flattened {template} -> {file}"
  | notFlattened e => e.message
  | collecting => "Collecting scopes..."
  | unknownCall template => s!"Ignoring render call of unknown template {Text.quote template}"
  | injecting => "Injecting scope into templates..."
  | unknownObservation template =>
    s!"Ignoring observation for unknown template {Text.quote template}"
  | injected n file => s!"Injected {n} declarations into {file}"
  | noneLeft => "No templates left to analyze"
  | analyzing n => s!"Analyzing {n} templates..."
  | dropped f => s!"Dropping finding on generated line {f.file}:{f.line}: {f.message}"
  | baselineWritten n file => s!"Wrote {n} baseline entries to {file}"
  | baselineGenerated 1 file => s!"Baseline generated with 1 error in {file}."
  | baselineGenerated n file => s!"Baseline generated with {n} errors in {file}."

end Event

end Stencil.Analysis
