import Stencil.Analysis.Run
import Stencil.CommandLine.Arguments

/-! The program: it analyzes templates and says what is wrong with them. -/
namespace Stencil.CommandLine
open Analysis Diagnosis

def exitClean : Nat := 0

def exitDiagnostics : Nat := 1

def exitFatal : Nat := 2

/-- The lines of a tip without the blanks and bullets they begin with. -/
def tipLines (tip : String) : List String :=
  (Text.lines tip).map fun l => String.ofList (l.toList.dropWhile fun c => c == ' ' || c == '•')

/-- The lines that show a diagnostic; templates and calls are given as seen from a directory. -/
def shown (directory : Path) (d : Diagnostic) : List String :=
  d.message ::
    ((d.tip.elim [] tipLines).map ("  tip: " ++ ·) ++
    d.identifier.toList.map ("  identifier: " ++ ·) ++
    (match d.file, d.line with
      | some file, some line => [s!"  generated: {file}:{line}"]
      | _, _ => []) ++
    (d.chain.elim [] Chain.toList).map (fun l => "  template: " ++ l.text (some directory)) ++
    d.renderPoints.map fun p => "  rendered at: " ++
      (⟨directory.join p.location.file, p.location.line⟩ : Location).text (some directory))

def shownAll (directory : Path) (ds : List Diagnostic) : String :=
  String.join (ds.map fun d => "\n".intercalate (shown directory d) ++ "\n\n")

/-- What ends the program without a result. -/
inductive Fault
  | settings (e : Settings.Invalid)
  | stop (s : Stop)

def Fault.message? : Fault → Option String
  | settings e => e.message?
  | stop s => s.message?

/-- The lines on a fault; if the program is not meant to run into it, it has none. -/
def Fault.lines? : Fault → Option (List String)
  | stop (.checker errors) => some (errors.map ("Error " ++ ·))
  | f => f.message?.map fun m => ["error: " ++ m]

/-- What the program leaves behind. -/
structure Ending where
  status : Nat
  output : String
  errors : String

def linesText (ls : List String) : String := String.join (ls.map (· ++ "\n"))

/-- The path as seen from a directory, without links. -/
def locate (t : Files.Tree) (directory : Path) (s : String) : Except Fault Path :=
  match t.resolve false (directory.join (Path.ofString s)).parts with
  | .ok p => .ok ⟨true, p⟩
  | .error e => .error (.stop (.resolving e))

/-- The request that the arguments make. -/
def request (t : Files.Tree) (directory : Path) (a : Arguments) : Except Fault Request := do
  let root ← locate t directory a.root
  let baseline ← a.baseline.mapM (locate t directory)
  if let some file := baseline then
    (Baseline.checkSuffix file).mapError fun e => .stop (.notWritten (.invalid e))
  let settings ← (Settings.load t root).mapError .settings
  let paths ← a.paths.mapM (locate t directory)
  return ⟨root, settings, paths, a.debug, baseline⟩

/-- What is said of a report. -/
def endingOf (directory : Path) (r : Request) (report : Report) : Ending :=
  let issues := linesText (report.issues.map fun i => "warning: " ++ i.text)
  if r.baseline.isSome then ⟨exitClean, "", issues⟩
  else
    match report.diagnostics.length with
    | 0 => ⟨exitClean, "No errors found\n", issues⟩
    | n =>
      ⟨exitDiagnostics, s!"Found {n} errors\n", issues ++ shownAll directory report.diagnostics⟩

def saidAloud (debug : Bool) (events : List Event) : List String :=
  (events.filter fun e => debug || e.severity != .debug).map (·.text)

/-- Runs an analysis from a directory without links; its result, and the tree that it leaves. -/
def analyze (checker : Checker) (t : Files.Tree) (directory : Path) (a : Arguments) :
    Except Fault Ending × Files.Tree :=
  match request t directory a with
  | .error f => (refuse [] f, t)
  | .ok r =>
    let (outcome, w) := Analysis.run checker r t
    let said := saidAloud a.debug w.events
    match outcome with
    | .error s => (refuse said (.stop s), w.tree)
    | .ok report =>
      let e := endingOf directory r report
      (.ok { e with errors := linesText said ++ e.errors }, w.tree)
where
  /-- The ending of a run that has a fault, after what was said before. -/
  refuse (said : List String) (f : Fault) : Except Fault Ending :=
    match f.lines? with
    | some ls => .ok ⟨exitFatal, "", linesText (said ++ ls)⟩
    | none => .error f

/-- Runs the program from a directory. -/
def run (checker : Checker) (t : Files.Tree) (directory : Path) (args : List String) :
    Except Refusal (Except Fault Ending × Files.Tree) :=
  (read args).map (analyze checker t directory)

end Stencil.CommandLine
