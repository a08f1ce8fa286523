import Stencil.Code.FileName
import Stencil.Compile.Statement
import Stencil.Template.StmtParser

/-! Templates as generated modules. -/
namespace Stencil.Compile
open Template Code

/-- Names that templates can use without anything giving them a meaning. -/
def implicitNames : List String := ["loop", "caller", "varargs", "kwargs", "self", "super"]

/-- The names that a template reads and does not define, sorted. A name defined anywhere in the
template counts as defined everywhere. -/
def contextVariables (d : Document) : List String :=
  let ms := bodyMentions d.body
  let read := ms.filterMap fun m => if m.role = .bind then none else some m.id
  let bound := ms.filterMap fun m => if m.role = .bind then some m.id else none
  let free := read.filter fun n =>
    !(bound.contains n || implicitNames.contains n || globals.contains n)
  free.eraseDups.mergeSort (fun a b => !decide (b < a))

/-- A template translated into a module. Lines without an origin are not in the source map. -/
structure CompiledUnit where
  template : Path
  file : Path
  source : String
  sourceMap : List (Nat × Location)
  reads : List String
  parent : Option Path
  includes : List Path

/-- An obstacle to the translation of a template. -/
structure CompileError where
  template : Path
  stop : Stop

namespace CompileError

variable (e : CompileError)

/-- The message without the place it is about. -/
def text : String := e.stop.obstacle.message

def message : String :=
  match e.stop.line with
  | none => s!"{e.template}: {e.text}"
  | some n => s!"{e.template}:{n}: {e.text}"

end CompileError

/-- Why there is no unit: something in the template, or a file or number that cannot be read. -/
inductive Failure
  | error (e : CompileError)
  | undecodable
  | numeral (e : NumeralError)

def titleOf (template : Path) : String := s!"Generated by jinjastan from {template}. Do not edit."

/-- The unit made of a body and what the builder gathered on the way. -/
def assemble (template directory : Path) (d : Document) (body : Lines) (b : Builder) :
    CompiledUnit :=
  let reads := contextVariables d
  let parts : Parts Location := {
    title := titleOf template
    context := reads.map fun v => declaration v anyType
    definitions := b.blocks.flatMap (·.2)
    body }
  { template
    file := directory.child (fileName template)
    source := parts.source
    sourceMap := parts.sourceMap
    reads
    parent := b.parent
    includes := b.includes }

/-- Translates a parsed template. Names of templates are looked up with `find`. -/
def ofDocument (template directory : Path) (find : Text.Points → Except Miss Path) (d : Document) :
    Except Failure CompiledUnit :=
  match (statements ⟨template, find⟩ Scope.top d.body).run Builder.empty with
  | .ok (body, b) => .ok (assemble template directory d body b)
  | .error (.stop s) => .error (.error ⟨template, s⟩)
  | .error .undecodable => .error .undecodable
  | .error (.numeral e) => .error (.numeral e)

/-- Why a template's file has no syntax tree. -/
inductive Unparsed
  | malformed (e : SyntaxError)
  | file (failure : Files.Failure)
  | undecodable
  | numeral (e : NumeralError)

/-- Reads and parses the file of a template. -/
def parseFile (dialect : Dialect) (t : Files.Tree) (template : Path) : Except Unparsed Document :=
  match t.readText template with
  | .error (.failure f) => .error (.file f)
  | .error .undecodable => .error .undecodable
  | .ok source =>
    match Document.parse dialect source with
    | .ok d => .ok d
    | .error (.malformed e) => .error (.malformed e)
    | .error (.numeral e) => .error (.numeral e)

def Unparsed.failure (template : Path) : Unparsed → Failure
  | .malformed e => .error ⟨template, .malformed e.fault, some e.line⟩
  | .file f => .error ⟨template, .file f, none⟩
  | .undecodable => .undecodable
  | .numeral e => .numeral e

/-- Translates the file of a template. The module belongs into `directory`. -/
def compile (dialect : Dialect) (lib : Library) (t : Files.Tree) (template directory : Path) :
    Except Failure CompiledUnit :=
  match parseFile dialect t template with
  | .error e => .error (e.failure template)
  | .ok d => ofDocument template directory (lib.find t) d

end Stencil.Compile
