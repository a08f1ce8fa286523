import Stencil.Analysis.Workspace
import Stencil.Diagnosis.Report
import Stencil.Flatten.Shared

/-!
The analysis of the templates of a project. They are found, put in order, compiled and flattened;
the checker says what they are given and then what is wrong with them, and its findings become
diagnostics.
-/
namespace Stencil.Analysis
open Compile Diagnosis Flatten Template

/-- What is known at the start of a run. -/
structure Setup where
  root : Path
  scratch : Scratch
  dialect : Dialect
  library : Library

/-- Readies the scratch directories before anything is read. -/
def setup (r : Request) : Work Setup := do
  let root ← resolved r.root
  let scratch ← Scratch.prepare root r.settings
  let dialect ← orStop .language r.settings.dialect
  return ⟨root, scratch, dialect, .ofLoader (.files (r.settings.shelves root))⟩

def selection (s : Settings) (suffixes : List String) : Scan.Selection :=
  ⟨suffixes, s.scratchDir, s.includes, s.excludes, s.nestedIgnores⟩

def templateDirs (root : Path) (s : Settings) : List Path :=
  (s.templatePaths ++ s.namespaces.map (·.2)).map fun p => root.join (Path.ofString p)

/-- The files that are templates: those given, or all of the project. Each is there once. -/
def findTemplates (t : Files.Tree) (root : Path) (s : Settings) (paths : List Path) :
    Except Scan.Fault (List Path) := do
  if !paths.isEmpty then return Scan.findGiven t s.templateSuffixes paths
  let found ← (templateDirs root s).mapM
    (Scan.findFiles t root (selection s s.templateSuffixes))
  return Scan.distinct t found.flatten

/-- The templates to look at, and the issues of files that are none. -/
def entriesOf (debug : Bool) (t : Files.Tree) (found : List Path) :
    Except Template.Unresolved (List Path × List Issue) :=
  found.foldlM (fun (entries, issues) p =>
    match Library.atPath t p with
    | .ok q => .ok (entries ++ [q], issues)
    | .error u =>
      if debug then .error u
      else .ok (entries, issues ++ [⟨.discovery, some p, u.message⟩])) ([], [])

/-- All that the entries need, each template behind those it depends on. -/
def order (s : Setup) (entries : List Path) : Work (List Path × Library × List Issue) := do
  note (.following entries.length)
  let d ← orStop .ofHalt (Dependency.Discovery.ofSeed s.dialect (← tree) s.library entries)
  note (.followed d.graph.nodes.length d.warnings.length)
  let ordered ← orStop .circular (d.graph.sort entries)
  note (.foundDependencies (ordered.length - entries.length))
  return (ordered, d.library, d.warnings.map .ofWarning)

/-- Compiles one template into its file. -/
def compileOne (s : Setup) (debug : Bool) (lib : Library) (template : Path) :
    Work (Except CompileError CompiledUnit) := do
  match compile s.dialect lib (← tree) template s.scratch.compilation with
  | .ok u =>
    write u.file u.source
    note (.compiled template u.file)
    return .ok u
  | .error (.error e) =>
    if debug then throw (.compiling e)
    note (.notCompiled e)
    return .error e
  | .error .undecodable => throw .undecodable
  | .error (.numeral e) => throw (.numeral e)

/-- Flattens one template into its file. The composites that this takes are kept. -/
def flattenOne (s : Setup) (debug : Bool) (sources : List Source) (template : Path) :
    StateT Table Work (Except FlattenError FlattenedUnit) := do
  let (outcome, made) := (Shared.flattenUnit sources s.scratch.flattening template).run (← get)
  set made
  match outcome with
  | .ok u =>
    write u.file u.source
    note (.flattened template u.file)
    return .ok u
  | .error (.error e) =>
    if debug then throw (.flattening (.error e))
    note (.notFlattened e)
    return .error e
  | .error f => throw (.flattening f)

/-- The values among outcomes, and the errors. -/
def partition {ε α : Type} (outcomes : List (Except ε α)) : List α × List ε :=
  (outcomes.filterMap Except.toOption, outcomes.filterMap fun
    | .ok _ => none
    | .error e => some e)

def compileAll (s : Setup) (debug : Bool) (lib : Library) (ordered : List Path) :
    Work (List CompiledUnit × List Issue) := do
  note (.compiling ordered.length)
  let (units, errors) := partition (← ordered.mapM (compileOne s debug lib))
  return (units, errors.map .ofCompileError)

def flattenAll (s : Setup) (debug : Bool) (units : List CompiledUnit) :
    Work (List FlattenedUnit × List Issue) := do
  note (.flattening units.length)
  let sources := units.map Source.ofUnit
  let outcomes ← (units.mapM fun u => flattenOne s debug sources u.template).run' []
  let (units, errors) := partition outcomes
  return (units, errors.map .ofFlattenError)

/-- What the checker says about the code of the project and the flattened templates. -/
def collect (checker : Checker) (s : Setup) (settings : Settings) (units : List FlattenedUnit) :
    Work Checker.Collection := do
  note .collecting
  let code ← orStop .scanning
    (Scan.findFiles (← tree) s.root (selection settings [".py"]) s.root)
  let files := code ++ units.map (·.file)
  modify fun w => { w with collected := w.collected ++ files }
  let c := checker.collect (← tree) files
  if !c.errors.isEmpty then throw (.checker c.errors)
  return c

/-- Says of each reference that is not known that it is left out. -/
def noteUnknown (lib : Library) (event : String → Event) (references : List String) :
    Work Unit := do
  for reference in references do
    match lib.resolve (← tree) reference with
    | .ok _ => pure ()
    | .error (.unresolved _) => note (event reference)
    | .error .undecodable => throw .undecodable

def renderPoints (lib : Library) (units : List FlattenedUnit) (calls : List RenderCall) :
    Work RenderTable := do
  noteUnknown lib .unknownCall (calls.map (·.template))
  orStop .ofUntabled (renderTable lib (← tree) units calls)

/-- Writes one unit with what was observed for its template. -/
def injectOne (s : Setup) (found : List (Path × Observed.Observation)) (u : FlattenedUnit) :
    Work Observed.InjectedUnit := do
  match Observed.injectUnit s.scratch.injection (Observed.sightingOf found u.template) u with
  | none => throw .noSection
  | some u =>
    write u.file u.source
    note (.injected u.declarations.length u.file)
    return u

def injectAll (s : Setup) (lib : Library) (observations : List Observed.Observation)
    (units : List FlattenedUnit) : Work (List Observed.InjectedUnit) := do
  note .injecting
  noteUnknown lib .unknownObservation (observations.map (·.template))
  let found ← orStop .ofMiss (Observed.located lib (← tree) observations)
  units.mapM (injectOne s found)

/-- What the checker finds in the units. -/
def check (checker : Checker) (units : List Observed.InjectedUnit) : Work (List Finding) := do
  note (.analyzing units.length)
  let files := units.map (·.file)
  modify fun w => { w with analyzed := w.analyzed ++ files }
  let a := checker.analyze (← tree) files
  if !a.errors.isEmpty then throw (.checker a.errors)
  return a.findings

/-- The diagnostics of findings, without those to ignore, one for each problem. -/
def diagnose (s : Settings) (units : List Observed.InjectedUnit) (table : RenderTable)
    (findings : List Finding) : List Diagnostic :=
  report s.ignoreRules units table findings

/-- Writes the baseline of the diagnostics, and says how many are in it. -/
def writeBaseline (file : Path) (ds : List Diagnostic) : Work (Path × Nat) := do
  let file ← resolved file
  let entries ← orStop .lost (Baseline.entriesOf file.parent ds)
  let (outcome, t) := (Baseline.dump file entries).run (← tree)
  modify fun w => { w with tree := t }
  orStop .notWritten outcome
  note (.baselineWritten entries.length file)
  let count := entries.foldl (fun n e => n + e.count) 0
  note (.baselineGenerated count file)
  return (file, count)

/-- What the baseline of the project accepts; nothing if there is none. -/
def accepted (t : Files.Tree) (root : Path) (s : Settings) :
    Except Baseline.Accepted.Fault Baseline.Accepted :=
  match s.baseline with
  | none => .ok .none
  | some name =>
    let file := root.join (Path.ofString name)
    if t.isFile file.parts then Baseline.Accepted.ofFile t file else .ok .none

/-- Analyzes the templates that are asked for. -/
def analyze (checker : Checker) (r : Request) : Work Report := do
  let s ← setup r
  let found ← orStop .scanning (findTemplates (← tree) s.root r.settings r.paths)
  let (entries, misplaced) ← orStop .unresolved (entriesOf r.debug (← tree) found)
  if entries.isEmpty then
    note .noTemplates
    return ⟨[], misplaced, [], none⟩
  let (ordered, lib, warnings) ← order s entries
  let (compiled, uncompiled) ← compileAll s r.debug lib ordered
  let (flattened, unflattened) ← flattenAll s r.debug compiled
  let issues := misplaced ++ warnings ++ uncompiled ++ unflattened
  let collection ← collect checker s r.settings flattened
  let table ← renderPoints lib flattened collection.renderCalls
  let injected ← injectAll s lib collection.observations flattened
  let units := entries.filterMap fun p => injected.find? (·.template = p)
  let templates := units.map (·.template)
  if units.isEmpty then
    note .noneLeft
    return ⟨[], issues, [], none⟩
  let findings ← check checker units
  (findings.filter fun f => (f.locate injected table).isNone).forM fun f => note (.dropped f)
  let ds := diagnose r.settings injected table findings
  match r.baseline with
  | some file => return ⟨ds, issues, templates, some (← writeBaseline file ds)⟩
  | none =>
    let known ← orStop .notAccepted (accepted (← tree) s.root r.settings)
    return ⟨known.filter ds, issues, templates, none⟩

/-- Analyzes templates of a tree. The workspace holds what was done on the way. -/
def run (checker : Checker) (r : Request) (t : Files.Tree) : Except Stop Report × Workspace :=
  (analyze checker r).run (.ofTree t)

end Stencil.Analysis
