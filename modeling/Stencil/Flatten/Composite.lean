import Stencil.Flatten.Reading
import Stencil.Text.Word

/-!
Templates with all that they include and extend. An included template becomes a function where it is
included; the body of a parent stands behind that of its child. The definitions of a block follow
each other from the most derived one up.
-/
namespace Stencil.Flatten
open Code

abbrev Lines := List (CodeLine Chain)

/-- The definitions of the blocks, the most derived ones first, and the body. -/
structure Composite where
  definitions : List (String × List Lines)
  body : Lines
  context : List String

/-- A unit as the composition sees it. -/
structure Source where
  template : Path
  reading : Result Reading
  context : List String

def Source.ofUnit (u : Compile.CompiledUnit) : Source :=
  ⟨u.template, read u.file u.source u.sourceMap, u.reads⟩

/-- Why a template has no composite. -/
inductive Obstacle
  | notCompiled
  | unreadable (message : String)
  | dependency (path : Path)
deriving DecidableEq, Repr

def Obstacle.message : Obstacle → String
  | notCompiled => "was not compiled"
  | unreadable message => message
  | dependency path => s!"depends on {path}, which could not be flattened"

/-- A template that cannot be flattened. -/
structure FlattenError where
  template : Path
  obstacle : Obstacle
deriving DecidableEq, Repr

def FlattenError.message (e : FlattenError) : String := s!"{e.template}: {e.obstacle.message}"

/-- What ends the composition. Templates that contain themselves have none. -/
inductive Failure
  | error (e : FlattenError)
  | fault (f : ReadFault)
  | endless
deriving DecidableEq, Repr

/-- A line moved inwards, its origin behind the place of the inclusion. -/
def wrapLine (site : Option Chain) (levels : Int) (l : CodeLine Chain) : CodeLine Chain :=
  { l.shifted levels with origin := l.origin.map fun c => (site.map c.within).getD c }

def wrap (site : Option Chain) (levels : Int) (ls : Lines) : Lines := ls.map (wrapLine site levels)

/-- Holds of lines that go on with the statement before them. -/
def continuesGroup (code : String) : Bool := code.startsWith "else:" || code.startsWith "elif "

/-- The statements at the outermost level with the lines below each. -/
def groups : Lines → List Lines
  | [] => []
  | l :: ls =>
    match groups ls with
    | [] => [[l]]
    | g :: gs =>
      match g.head? with
      | some m => if m.indent == 0 && !continuesGroup m.code then [l] :: g :: gs else (l :: g) :: gs
      | none => [l] :: gs

/-- Holds if `part` occurs in `cs`. -/
def occursIn (part : List Char) : List Char → Bool
  | [] => part.isEmpty
  | c :: cs => part.isPrefixOf (c :: cs) || occursIn part cs

def outputCall : String := outputBuffer ++ ".append("

/-- Holds of statements that write nothing out. A function does so only when it is called. -/
def isSilent (group : Lines) : Bool :=
  (group.head?.any fun l => l.code.startsWith "def ") ||
    !group.any fun l => occursIn outputCall.toList l.code.toList

/-- The statements that write nothing out. -/
def withoutOutput (ls : Lines) : Lines := ((groups ls).filter isSilent).flatten

/-- Replaces `old` by `new` where it does not go on with a word. -/
def replaceAtWords (old new : List Char) : Nat → Bool → List Char → List Char
  | 0, _, cs => cs
  | _, _, [] => []
  | fuel + 1, inWord, c :: cs =>
    if !inWord && old.isPrefixOf (c :: cs) then
      new ++ replaceAtWords old new fuel (old.getLast?.any Text.isWord) ((c :: cs).drop old.length)
    else c :: replaceAtWords old new fuel (Text.isWord c) cs

def call (function : String) : List Char := (function ++ "(").toList

/-- The header of a block's function with the name for `level`. -/
def renameHeader (name : String) (level : Nat) (code : String) : String :=
  let old := "def ".toList ++ call (blockFunction name 0)
  if old.isPrefixOf code.toList then
    String.ofList ("def ".toList ++ call (blockFunction name level) ++ code.toList.drop old.length)
  else code

/-- The calls of the parent's definition lead one level further up. -/
def renameCalls (name : String) (level : Nat) (code : String) : String :=
  let old := call (blockFunction name 1)
  let new := call (blockFunction name (level + 1))
  String.ofList (replaceAtWords old new (code.length + 1) false code.toList)

def mapCode (f : String → String) (l : CodeLine Chain) : CodeLine Chain :=
  { l with code := f l.code }

/-- The definition of a block as the one `level` parents up. -/
def renameDefinition (name : String) : Nat → Lines → Lines
  | 0, ls => ls
  | _, [] => []
  | level + 1, header :: ls =>
    mapCode (renameHeader name (level + 1)) header ::
      ls.map (mapCode (renameCalls name (level + 1)))

def emitChain (name : String) : Nat → List Lines → Lines
  | _, [] => []
  | level, ls :: rest => renameDefinition name level ls ++ emitChain name (level + 1) rest

/-- All definitions one after the other. -/
def emitDefinitions (definitions : List (String × List Lines)) : Lines :=
  definitions.flatMap fun d => emitChain d.1 0 d.2

def includeFunction (number : Nat) : String := s!"_jt_include_{number}"

/-- An included template as a function, and its call. -/
def inline (included : Composite) (site : CodeLine Chain) (buffer : String) (number : Nat) :
    Lines :=
  let inner := site.indent + 1
  let function := includeFunction number
  [⟨site.indent, Compile.functionHeader function "", site.origin⟩] ++
    wrap site.origin inner (emitDefinitions included.definitions) ++ [scaffold inner prologue] ++
    wrap site.origin inner included.body ++ [scaffold inner epilogue] ++
    [⟨site.indent, Compile.append buffer (function ++ "()"), site.origin⟩]

/-- The names of `more` that are not yet among `names`, behind these. -/
def addNames (names more : List String) : List String :=
  more.foldl (fun ns n => if ns.contains n then ns else ns ++ [n]) names

/-- What has been found while the directives of a template were replaced. -/
structure Progress where
  /-- The number of inclusions. -/
  count : Nat
  context : List String
  /-- The parent and how many lines stand before it. -/
  parent : Option (Path × Nat)

section Expand

variable {m : Type → Type} [Monad m] (dependency : Path → m Composite)

/-- Replaces a segment behind `lines`. -/
def expandSegment (lines : Lines) (p : Progress) (s : Segment) : m (Lines × Progress) :=
  match s.directive with
  | none => return (lines ++ [s.line], p)
  | some ⟨.extends_, target⟩ => return (lines, { p with parent := some (target, lines.length) })
  | some ⟨.include_ buffer, target⟩ => do
    let included ← dependency target
    let number := p.count + 1
    return (lines ++ inline included s.line buffer number,
      { p with count := number, context := addNames p.context included.context })

def expand (lines : Lines) (p : Progress) : List Segment → m (Lines × Progress)
  | [] => return (lines, p)
  | s :: ss => do
    let (lines, p) ← expandSegment dependency lines p s
    expand lines p ss

def expandDefinitions (p : Progress) :
    List (String × List Segment) → m (List (String × List Lines) × Progress)
  | [] => return ([], p)
  | d :: ds => do
    let (lines, p) ← expand dependency [] p d.2
    let (rest, p) ← expandDefinitions p ds
    return ((d.1, [lines]) :: rest, p)

/-- The definitions of a child in front of those of its parent. -/
def mergeDefinitions (own inherited : List (String × List Lines)) : List (String × List Lines) :=
  inherited.map (fun d => (d.1, (own.lookup d.1).getD [] ++ d.2)) ++
    own.filter fun d => (inherited.lookup d.1).isNone

/-- What a child keeps of its body: nothing behind the parent's place is written out. -/
def childBody (body : Lines) (at_ : Nat) : Lines := body.take at_ ++ withoutOutput (body.drop at_)

/-- The composite of a template that has been read. -/
def compose (context : List String) (r : Reading) : m Composite := do
  let (definitions, p) ← expandDefinitions dependency ⟨0, context, none⟩ r.definitions
  let (body, p) ← expand dependency [] p r.body
  match p.parent with
  | none => return ⟨definitions, body, p.context⟩
  | some (parent, place) =>
    let ancestor ← dependency parent
    return {
      definitions := mergeDefinitions definitions ancestor.definitions
      body := childBody body place ++ ancestor.body
      context := addNames p.context ancestor.context }

end Expand

/-- How a failure of a dependency is a failure of the template. -/
def blame (template dependency : Path) : Failure → Failure
  | .error _ => .error ⟨template, .dependency dependency⟩
  | f => f

def sourceOf (sources : List Source) (template : Path) : Option Source :=
  sources.find? fun s => s.template == template

/-- The composite of a template among others, given those of its dependencies. -/
def composeAmong {m : Type → Type} [Monad m] [MonadExceptOf Failure m] (sources : List Source)
    (dependency : Path → m Composite) (template : Path) : m Composite :=
  match sourceOf sources template with
  | none => throw (.error ⟨template, .notCompiled⟩)
  | some s =>
    match s.reading with
    | .error f =>
      match f.message? with
      | some message => throw (.error ⟨template, .unreadable message⟩)
      | none => throw (.fault f)
    | .ok r => compose dependency s.context r

/-- The composite of a template, with dependencies inside each other to a depth below the second
argument. -/
def composite (sources : List Source) : Nat → Path → Except Failure Composite
  | 0, _ => .error .endless
  | depth + 1, template =>
    composeAmong sources (fun d => (composite sources depth d).mapError (blame template d)) template

end Stencil.Flatten
