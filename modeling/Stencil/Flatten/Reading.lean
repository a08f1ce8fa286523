import Stencil.Code.Grammar
import Stencil.Code.Layout
import Stencil.Compile.Unit

/-!
Compiled units read back: the functions of the blocks, the body, and the directives that stand for
other templates.
-/
namespace Stencil.Flatten
open Code

inductive DirectiveKind
  | extends_
  /-- The rendered template goes into the buffer. -/
  | include_ (buffer : String)
deriving DecidableEq, Repr

def DirectiveKind.text : DirectiveKind → String
  | extends_ => "extends"
  | include_ _ => "include"

/-- A call that stands for another template. -/
structure Directive where
  kind : DirectiveKind
  target : Path
deriving DecidableEq, Repr

/-- A line of a unit with the directive it holds. -/
structure Segment where
  line : CodeLine Chain
  directive : Option Directive
deriving DecidableEq

/-- What a unit consists of. -/
structure Reading where
  definitions : List (String × List Segment)
  body : List Segment
deriving DecidableEq

inductive ReadFault
  | malformed (file : Path)
  | noRender
  | noTarget (kind : String)
  | outsideAppend
  /-- The target is a literal of bytes. -/
  | bytesTarget
  /-- The target is a literal that holds code. -/
  | formattedTarget
  /-- The target's literal has an escape that means nothing. -/
  | badEscape
  /-- A row of the code is not among its lines. -/
  | noLine
deriving DecidableEq, Repr

namespace ReadFault

/-- The message of the faults that a unit itself is to blame for. -/
def message? : ReadFault → Option String
  | malformed file => some s!"{file} is not valid Python"
  | noRender => some s!"no {renderFunction}() function"
  | noTarget kind => some s!"{kind} directive without a template path"
  | outsideAppend => some "include directive outside of an append"
  | bytesTarget | formattedTarget | badEscape | noLine => none

end ReadFault

abbrev Result (α : Type) := Except ReadFault α

/-- The text that a string literal stands for. -/
def literalText (literal : String) : Result String :=
  let cs := literal.toList
  let letters := cs.takeWhile Token.isPrefixLetter
  let has := fun (a b : Char) => letters.contains a || letters.contains b
  let quoted := cs.drop letters.length
  let quote := quoted.take 1
  let width := if [quote, quote, quote].flatten.isPrefixOf quoted then 3 else 1
  let inside := (quoted.drop width).take (quoted.length - 2 * width)
  if has 'b' 'B' then .error .bytesTarget
  else if has 'f' 'F' then .error .formattedTarget
  else if has 'r' 'R' then .ok (String.ofList inside)
  else
    match Text.Escape.decode inside with
    | .error _ => .error .badEscape
    | .ok ps =>
      match Text.Points.toString? ps with
      | some s => .ok s
      | none => .error .badEscape

section Directives

variable (source : List Char)

/-- What a call says by the text of its function. -/
def directiveName? (function : Node) : Option String :=
  match function.text source with
  | "_jt_rt.extends" => some "extends"
  | "_jt_rt.include" => some "include"
  | _ => none

/-- The buffer that a call's value is appended to, given what is around the call. -/
def bufferAround? : Option Node → Option String
  | some (.mk .call _ (.mk .member _ (owner :: _) :: _)) => some (owner.text source)
  | _ => none

/-- The directive that a call with its arguments is. -/
def directive? (around : Option Node) (function arguments : Node) : Result (Option Directive) :=
  match directiveName? source function with
  | none => .ok none
  | some name =>
    match arguments.children.find? fun n => n.kind == .quoted with
    | none => .error (.noTarget name)
    | some literal => do
      let target := Path.ofString (← literalText (literal.text source))
      if name == "extends" then return some ⟨.extends_, target⟩
      else
        match bufferAround? source around with
        | some buffer => return some ⟨.include_ buffer, target⟩
        | none => .error .outsideAppend

abbrev Found := List (Nat × Directive)

mutual

/-- The directives in a part of the code with their rows; of several in a row the first one in the
list is the last in the code. -/
def directives (parent around : Option Node) (n : Node) (found : Found) : Result Found :=
  match n with
  | .mk .call extent [function, arguments] => do
    match ← directive? source around function arguments with
    | some d => return (extent.row, d) :: found
    | none => do
      let self := Node.mk .call extent [function, arguments]
      let found ← directives (some self) parent function found
      directives (some self) parent arguments found
  | .mk kind extent children =>
    directivesAll (some (.mk kind extent children)) parent children found

def directivesAll (parent around : Option Node) : List Node → Found → Result Found
  | [], found => .ok found
  | n :: ns, found => do
    let found ← directives parent around n found
    directivesAll parent around ns found

end

end Directives

/-- The statements of a function's body. -/
def bodyOf (n : Node) : List Node := ((n.children.getLast?).map Node.children).getD []

/-- The body of the render function. -/
def renderBody? (nodes : List Node) : Option Node :=
  (nodes.find? fun n => n.kind == .function renderFunction).bind fun n => n.children.getLast?

section Segments

variable (lines : Array String) (origins : List (Nat × Location)) (found : Found)

/-- A row as a line of code; blank rows give none. -/
def segment (row : Nat) : Result (List Segment) :=
  match lines[row]? with
  | none => .error .noLine
  | some text =>
    let code := text.toList.dropWhile (· == ' ')
    if code.isEmpty then .ok []
    else
      let spaces : Nat := text.length - code.length
      let indent : Int := (spaces / 4 : Nat) - 1
      let origin := (origins.lookup (row + 1)).map Chain.single
      .ok [⟨⟨indent, String.ofList code, origin⟩, found.lookup row⟩]

/-- The rows of a statement. -/
def segments (n : Node) : Result (List Segment) := do
  let rows := (List.range (n.extent.endRow + 1 - n.extent.row)).map (n.extent.row + ·)
  let parts ← rows.mapM (segment lines origins found)
  return parts.flatten

/-- The block that a function implements. -/
def blockName? (n : Node) : Option String :=
  match n.kind with
  | .function name =>
    if name.startsWith blockStem then some (String.ofList (name.toList.drop blockStem.length))
    else none
  | _ => none

/-- Sets the definition of a block; one that is there keeps its place. -/
def define (name : String) (segments : List Segment) :
    List (String × List Segment) → List (String × List Segment)
  | [] => [(name, segments)]
  | d :: ds => if d.1 == name then (name, segments) :: ds else d :: define name segments ds

def isScaffold (source : List Char) (n : Node) : Bool :=
  n.text source == prologue || n.text source == epilogue

/-- Adds a statement of the render function to what has been read. -/
def readStatement (source : List Char) (r : Reading) (n : Node) : Result Reading := do
  match blockName? n with
  | some name =>
    return { r with definitions := define name (← segments lines origins found n) r.definitions }
  | none =>
    if isScaffold source n then return r
    else return { r with body := r.body ++ (← segments lines origins found n) }

end Segments

/-- Reads the characters of a unit's code, whose lines have origins. -/
def readChars (file : Path) (source : List Char) (origins : List (Nat × Location)) : Result Reading :=
  match Code.parse? source with
  | none => .error (.malformed file)
  | some nodes =>
    match renderBody? nodes with
    | none => .error .noRender
    | some body => do
      let found ← directivesAll source (some body) none body.children []
      let lines := ((Text.linesOf source).map String.ofList).toArray
      body.children.foldlM (readStatement lines origins found source) ⟨[], []⟩

/-- Reads the code of a unit. -/
def read (file : Path) (code : String) (origins : List (Nat × Location)) : Result Reading :=
  readChars file code.toList origins

end Stencil.Flatten
