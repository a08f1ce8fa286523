import Stencil.Code.Layout
import Stencil.Compile.Expression
import Stencil.Source.Location
import Stencil.Template.Library
import Stencil.Template.Mention
import Stencil.Template.Reference
import Stencil.Template.Token

/-!
Statements of templates as lines of generated code. Output is appended to a buffer; the bodies of
blocks, macros and calls become functions with a buffer of their own.
-/
namespace Stencil.Compile
open Template Code

abbrev Lines := List (CodeLine Location)

/-- Why a template has no generated module. -/
inductive Obstacle
  | construct (kind : String)
  | blockTwice (name : String)
  | nestedExtends
  | secondExtends
  | dynamicExtends
  | unresolved (names : TemplateNames)
  | expression (reason : Reason)
  | malformed (fault : Fault)
  | file (failure : Files.Failure)

/-- Names with commas between them. -/
def joinNames (names : TemplateNames) : Text.Points :=
  (names.intersperse (Text.Points.ofString ", ")).flatten

def Obstacle.message : Obstacle → String
  | construct kind => s!"Unsupported template construct: {kind}"
  | blockTwice name => s!"Block {Text.quote name} defined twice"
  | nestedExtends => "extends is only supported at the top level of a template"
  | secondExtends => "Template extends more than one parent"
  | dynamicExtends => "Dynamic extends targets are not supported"
  | unresolved names => s!"Unable to resolve template {Text.quotePoints (joinNames names)}"
  | expression reason => reason.message
  | malformed fault => fault.message
  | file failure => failure.message

/-- An obstacle and the line it is on. -/
structure Stop where
  obstacle : Obstacle
  line : Line

/-- What ends the work on a template. A file that holds no text is no fault of the template. -/
inductive Halt
  | stop (s : Stop)
  | undecodable
  | numeral (e : NumeralError)

/-- What has been found in a template so far. -/
structure Builder where
  /-- The functions of the blocks, an outer block before those inside it. -/
  blocks : List (String × Lines)
  parent : Option Path
  includes : List Path
  /-- The number of names made up. -/
  counter : Nat

def Builder.empty : Builder := ⟨[], none, [], 0⟩

/-- Where statements go: how deep, into which buffer, and within which block. -/
structure Scope where
  indent : Int
  buffer : String
  block : Option String
  topLevel : Bool

namespace Scope

def top : Scope := ⟨0, outputBuffer, none, true⟩

def nested (s : Scope) : Scope := { s with indent := s.indent + 1, topLevel := false }

/-- The body of a function defined here. -/
def function (s : Scope) : Scope :=
  { s with indent := s.indent + 1, buffer := outputBuffer, topLevel := false }

/-- The body of a block, which is defined at the outermost level. -/
def ofBlock (name : String) : Scope := ⟨1, outputBuffer, some name, false⟩

def withBuffer (s : Scope) (buffer : String) : Scope := { s with buffer }

end Scope

/-- The template at work and how names of templates are looked up. -/
structure Setting where
  template : Path
  find : Text.Points → Except Miss Path

abbrev Build := StateT Builder (Except Halt)

variable (u : Setting) (scope : Scope)

def stopAt {α : Type} (obstacle : Obstacle) (line : Line) : Build α :=
  throw (.stop ⟨obstacle, line⟩)

def ofResult {α : Type} : Result α → Build α
  | .ok a => pure a
  | .error e => stopAt (.expression e.reason) e.line

def compiled (e : Expr) : Build String := ofResult (expr scope.block none e)

def assigned (e : Expr) : Build String := ofResult (target e)

/-- A line that a node of the template gives rise to. -/
def lineAt (indent : Int) (code : String) (line : Line) : CodeLine Location :=
  ⟨indent, code, some ⟨u.template, line⟩⟩

def emit (code : String) (line : Line) : CodeLine Location := lineAt u scope.indent code line

/-- A suite is never empty. -/
def suiteOf (body : Lines) (owner : Line) : Lines :=
  if body.isEmpty then [emit u scope "pass" owner] else body

/-- A function that collects the output of `body`, which is one level deeper. -/
def functionOf (indent : Int) (header : String) (line : Line) (body : Lines) : Lines :=
  lineAt u indent header line :: scaffold (indent + 1) prologue :: body ++
    [scaffold (indent + 1) epilogue]

def append (buffer value : String) : String := buffer ++ ".append(" ++ value ++ ")"

/-- The text of a value. -/
def shown (value : String) : String := "str(" ++ value ++ ")"

def joined (buffer : String) : String := "\"\".join(" ++ buffer ++ ")"

def opened (buffer : String) : String := buffer ++ ": list[str] = []"

def freshNumber : Build Nat := do
  let b ← get
  set { b with counter := b.counter + 1 }
  return b.counter + 1

def bufferName (n : Nat) : String := s!"_jt_buf{n}"

def callerName (n : Nat) : String := s!"_jt_caller_{n}"

def defaultTexts : List Expr → Result (List String)
  | [] => .ok []
  | e :: es => do
    let e ← expr none none e
    return e :: (← defaultTexts es)

def parameterText (name : String) (default : Option String) : String :=
  declaration name anyType ++ " = " ++ default.getD "None"

/-- The parameters of a function. Names that stand for what else is passed become parameters if the
function loads them. -/
def parameters (allowCaller : Bool) (params defaults used : List String) : String :=
  let values := List.replicate (params.length - defaults.length) none ++ defaults.map some
  let has := fun (name : String) => used.contains name && !params.contains name
  let caller := allowCaller && has "caller"
  let positional :=
    if has "varargs" then ["*varargs: typing.Any"] else if caller then ["*"] else []
  let called := if caller then ["caller: _jt_rt.Caller = _jt_rt.no_caller"] else []
  let keyed := if has "kwargs" then ["**kwargs: typing.Any"] else []
  commaSeparated
    ((params.zip values).map (fun p => parameterText p.1 p.2) ++ positional ++ called ++ keyed)

/-- The first of some names that leads to a template. -/
def firstFound (find : Text.Points → Except Miss Path) :
    TemplateNames → Except Halt (Option Path)
  | [] => .ok none
  | name :: names =>
    match find name with
    | .ok p => .ok (some p)
    | .error .undecodable => .error .undecodable
    | .error (.unresolved _) => firstFound find names

/-- The template that one of the names leads to; it may be missing if `ignoreMissing` is set. -/
def resolve (names : TemplateNames) (ignoreMissing : Bool) (line : Line) : Build (Option Path) := do
  match ← (firstFound u.find names : Except Halt (Option Path)) with
  | some p => return some p
  | none => if ignoreMissing then return none else stopAt (.unresolved names) line

/-- The output of one child of an output statement; blank text gives none. -/
def outputLine : Expr → Build Lines
  | .data line text =>
    if Text.allBlank text then return []
    else return [emit u scope (append scope.buffer (Text.quote text)) line]
  | e => do
    let value ← compiled scope e
    return [emit u scope (append scope.buffer (shown value)) e.line]

def outputLines : List Expr → Build Lines
  | [] => return []
  | e :: es => do
    let ls ← outputLine u scope e
    return ls ++ (← outputLines es)

/-- The target of a loop; several names stand in parentheses. -/
def loopTarget (e : Expr) : Build String := do
  let text ← assigned e
  match e with
  | .tuple .. => return "(" ++ text ++ ")"
  | _ => return text

def loopHeader (target source : String) : String :=
  "for loop, " ++ target ++ " in _jt_rt.loop(" ++ source ++ "):"

def elseHeader (source : String) : String := "if _jt_rt.empty(" ++ source ++ "):"

/-- The lines that skip the items which fail a loop's test. -/
def loopTest (line : Line) : Option Expr → Build Lines
  | none => return []
  | some test => do
    let test ← compiled scope test
    return [emit u scope ("if not " ++ test ++ ":") line,
      lineAt u (scope.indent + 1) "continue" line]

/-- What a block's text becomes: a filter may apply to it. -/
def captured (buffer : String) : Option Expr → Build String
  | none => return joined buffer
  | some filter => ofResult (expr scope.block (some (joined buffer)) filter)

/-- Reserves the place of a block among the blocks. -/
def openBlock (name : String) (line : Line) : Build Unit := do
  let b ← get
  if (b.blocks.lookup name).isSome then stopAt (.blockTwice name) line
  set { b with blocks := b.blocks ++ [(name, [])] }

def closeBlock (name : String) (ls : Lines) : Build Unit :=
  modify fun b => { b with blocks := b.blocks.map fun d => if d.1 == name then (name, ls) else d }

def extendsLine (template : Expr) (line : Line) : Build Lines := do
  if !scope.topLevel then stopAt .nestedExtends line
  if (← get).parent.isSome then stopAt .secondExtends line
  match template.templateNames? with
  | none => stopAt .dynamicExtends line
  | some names =>
    match ← resolve u names false line with
    | none => stopAt .dynamicExtends line
    | some parent =>
      modify fun b => { b with parent := some parent }
      return [emit u scope ("_jt_rt.extends(" ++ Text.quote parent.text ++ ")") line]

def includeLine (template : Expr) (ignoreMissing : Bool) (line : Line) : Build Lines := do
  match template.templateNames? with
  | none =>
    let target ← compiled scope template
    return [emit u scope (append scope.buffer ("_jt_rt.include_dynamic(" ++ target ++ ")")) line]
  | some names =>
    match ← resolve u names ignoreMissing line with
    | none => return []
    | some included =>
      modify fun b => { b with includes := b.includes ++ [included] }
      let call := "_jt_rt.include(" ++ Text.quote included.text ++ ")"
      return [emit u scope (append scope.buffer call) line]

def importText (template : String) : String := "_jt_rt.import_template(" ++ template ++ ")"

def importLines (template : String) (line : Line) (names : List (String × String)) : Lines :=
  names.map fun n =>
    emit u scope (identifier n.2 ++ " = " ++ importText template ++ "." ++ n.1) line

def assignments (line : Line) : List (Expr × Expr) → Build Lines
  | [] => return []
  | (target, value) :: es => do
    let target ← assigned target
    let value ← compiled scope value
    return emit u scope (target ++ " = " ++ value) line :: (← assignments line es)

def functionHeader (name params : String) : String :=
  "def " ++ name ++ "(" ++ params ++ ") -> str:"

mutual

def statement (scope : Scope) : Stmt → Build Lines
  | .output _ nodes => outputLines u scope nodes
  | .extends_ line template => extendsLine u scope template line
  | .for_ line target source body otherwise test _ => do
    let source ← compiled scope source
    let target ← loopTarget target
    let test ← loopTest u scope.nested line test
    let body ← statements scope.nested body
    let head := emit u scope (loopHeader target source) line :: test ++
      suiteOf u scope.nested body line
    if otherwise.isEmpty then return head
    else
      let otherwise ← statements scope.nested otherwise
      return head ++ emit u scope (elseHeader source) line :: suiteOf u scope.nested otherwise line
  | .if_ line test body branches otherwise => do
    let test ← compiled scope test
    let body ← statements scope.nested body
    let branches ← elifs scope branches
    let head := emit u scope ("if " ++ test ++ ":") line :: suiteOf u scope.nested body line ++
      branches
    let last ← statements scope.nested otherwise
    match otherwise.head? with
    | none => return head
    | some first =>
      return head ++ emit u scope "else:" first.line :: suiteOf u scope.nested last line
  | .macro_ line id params defaults body => do
    let values ← ofResult (defaultTexts defaults)
    let used := loads (mentionsAll defaults ++ bodyMentions body)
    let header := functionHeader (identifier id) (parameters true params values used)
    let body ← statements scope.function body
    return functionOf u scope.indent header line body
  | .callBlock line call params defaults body => do
    let caller := callerName (← freshNumber)
    let values ← ofResult (defaultTexts defaults)
    let used := loads (call.mentions ++ mentionsAll defaults ++ bodyMentions body)
    let header := functionHeader caller (parameters false params values used)
    let body ← statements scope.function body
    let call ← ofResult (callWith scope.block ["caller=" ++ caller] call)
    return functionOf u scope.indent header line body ++
      [emit u scope (append scope.buffer (shown call)) line]
  | .filterBlock line body filter => do
    let buffer := bufferName (← freshNumber)
    let filtered ← captured scope buffer (some filter)
    let body ← statements (scope.withBuffer buffer) body
    return emit u scope (opened buffer) line :: body ++
      [emit u scope (append scope.buffer filtered) line]
  | .with_ line targets values body => do
    let head ← assignments u scope line (targets.zip values)
    return head ++ (← statements scope body)
  | .block line id body _ _ => do
    openBlock id line
    let body ← statements (Scope.ofBlock id) body
    closeBlock id (functionOf u 0 (functionHeader (blockFunction id 0) "") line body)
    return [emit u scope (append scope.buffer (blockFunction id 0 ++ "()")) line]
  | .include_ line template _ ignoreMissing => includeLine u scope template ignoreMissing line
  | .import_ line template target _ => do
    let template ← compiled scope template
    return [emit u scope (identifier target ++ " = " ++ importText template) line]
  | .fromImport line template names _ => do
    let template ← compiled scope template
    return importLines u scope template line names
  | .exprStmt line value => do
    let value ← compiled scope value
    return [emit u scope value line]
  | .assign line target value => assignments u scope line [(target, value)]
  | .assignBlock line target filter body => do
    let buffer := bufferName (← freshNumber)
    let value ← captured scope buffer filter
    let target ← assigned target
    let body ← statements (scope.withBuffer buffer) body
    return emit u scope (opened buffer) line :: body ++
      [emit u scope (target ++ " = " ++ value) line]
  | .scope _ body => statements scope body
  | .scopedOptions _ _ body => statements scope body
  | .options .. => return []
  | .continue_ line => return [emit u scope "continue" line]
  | .break_ line => return [emit u scope "break" line]
  | .other line kind => stopAt (.construct kind) line
termination_by structural s => s

def statements (scope : Scope) : List Stmt → Build Lines
  | [] => return []
  | s :: ss => do
    let ls ← statement scope s
    return ls ++ (← statements scope ss)
termination_by structural ss => ss

def elifs (scope : Scope) : List Branch → Build Lines
  | [] => return []
  | b :: bs => do
    let ls ← elif scope b
    return ls ++ (← elifs scope bs)
termination_by structural bs => bs

def elif (scope : Scope) : Branch → Build Lines
  | .mk line test body => do
    let test ← compiled scope test
    let body ← statements scope.nested body
    return emit u scope ("elif " ++ test ++ ":") line :: suiteOf u scope.nested body line
termination_by structural b => b

end

end Stencil.Compile
