import Stencil.Code.Const
import Stencil.Code.Name

/-!
Expressions of templates as expressions of the generated code. Every operation is written in
parentheses, so no text groups differently where it is put.
-/
namespace Stencil.Compile
open Template Code

/-- Why an expression has no counterpart. -/
inductive Reason
  | unknownNode (kind : String)
  | superOutsideBlock
  | target
  | filterInput (name : String)

def Reason.message : Reason → String
  | unknownNode kind => s!"Unsupported expression: {kind}"
  | superOutsideBlock => "super() used outside of a block"
  | target => "Unsupported assignment target"
  | filterInput name => s!"Filter {Text.quote name} has no input"

structure Unsupported where
  reason : Reason
  line : Line

/-- Names that every template can use without getting them. -/
def globals : List String := ["range", "dict", "lipsum", "cycler", "joiner", "namespace"]

/-- The ones of them that generated code takes from its runtime module. -/
def runtimeGlobals : List String := ["lipsum", "cycler", "joiner", "namespace"]

/-- The test that an operator stands for where a test's name is expected. -/
def testName : String → String
  | "==" => "eq"
  | "!=" => "ne"
  | "<" => "lt"
  | "<=" => "le"
  | ">" => "gt"
  | ">=" => "ge"
  | name => name

def commaSeparated (items : List String) : String := ", ".intercalate items

/-- A loaded name. -/
def loadName (id : String) : String :=
  if runtimeGlobals.contains id then "_jt_rt." ++ id else identifier id

/-- A tuple; a comma stands behind a single item. -/
def tupleText : List String → String
  | [item] => "(" ++ item ++ ",)"
  | items => "(" ++ commaSeparated items ++ ")"

/-- A slice without its brackets; a step is written only if there is one. -/
def sliceText (start stop step : Option String) : String :=
  let bounds := start.getD "" ++ ":" ++ stop.getD ""
  match step with
  | none => bounds
  | some s => bounds ++ ":" ++ s

/-- The attribute of a value; a keyword cannot stand behind a point. -/
def attributeText (owner attr : String) : String :=
  if isKeyword attr then "getattr(" ++ owner ++ ", " ++ Text.quote attr ++ ")"
  else owner ++ "." ++ attr

/-- Arguments in the order in which they are written. Named arguments whose names are keywords are
passed in a spread dictionary. -/
def argumentTexts (args : List String) (rest : Option String) (named : List (String × String))
    (restNamed : Option String) : List String :=
  let usual := named.filter fun n => !isKeyword n.1
  let unusual := named.filter fun n => isKeyword n.1
  let spread :=
    if unusual.isEmpty then []
    else ["**\x7b" ++ commaSeparated (unusual.map fun n => Text.quote n.1 ++ ": " ++ n.2) ++ "\x7d"]
  args ++ (rest.map ("*" ++ ·)).toList ++ usual.map (fun n => n.1 ++ "=" ++ n.2) ++ spread ++
    (restNamed.map ("**" ++ ·)).toList

def unaryText : UnaryOp → String → String
  | .not, e => "(not " ++ e ++ ")"
  | .neg, e => "(-" ++ e ++ ")"
  | .pos, e => "(+" ++ e ++ ")"

def callText (function : String) (args : List String) : String :=
  function ++ "(" ++ commaSeparated args ++ ")"

abbrev Result (α : Type) := Except Unsupported α

def refuse {α : Type} (reason : Reason) (line : Line) : Result α := .error ⟨reason, line⟩

/-- Holds of the callee of a parent block's call. -/
def isSuper : Expr → Bool
  | .name _ "super" _ => true
  | _ => false

/-- Holds of the value whose attributes are the template's own blocks. -/
def isSelf : Expr → Bool
  | .name _ "self" _ => true
  | _ => false

/-- What a filter without an operand applies to. -/
def filterInput (input : Option String) (line : Line) (name : String) : Result String :=
  match input with
  | some text => .ok text
  | none => refuse (.filterInput name) line

/-- A call of the parent's definition of a block. -/
def superCall (block : Option String) (line : Line) : Result String :=
  match block with
  | none => refuse .superOutsideBlock line
  | some name => .ok (blockFunction name 1 ++ "()")

mutual

/-- The text of an expression inside the block `block`. Filters without an input apply to
`input`. -/
def expr (block input : Option String) : Expr → Result String
  | .name _ id _ => .ok (loadName id)
  | .attrRef _ space attr => .ok (identifier space ++ "." ++ attr)
  | .const _ value => .ok value.literal
  | .data _ text => .ok (Text.quote text)
  | .tuple _ items => do return tupleText (← exprs block items)
  | .list _ items => do return "[" ++ commaSeparated (← exprs block items) ++ "]"
  | .dict _ items => do return "\x7b" ++ commaSeparated (← pairs block items) ++ "\x7d"
  | .cond _ test body otherwise => do
    let otherwise ← option block otherwise
    let body ← expr block none body
    let test ← expr block none test
    return "(" ++ body ++ " if " ++ test ++ " else " ++ otherwise.getD "None" ++ ")"
  | .filter line operand name args named rest restNamed => do
    let operand ← filterOperand block input line name operand
    let args ← exprs block args
    let rest ← option block rest
    let named ← namedArguments block named
    let args := argumentTexts args rest named (← option block restNamed)
    return callText ("_jt_filters." ++ runtimeAttribute name) (operand :: args)
  | .test _ operand name args named rest restNamed => do
    let operand ← expr block input operand
    let args ← exprs block args
    let rest ← option block rest
    let named ← namedArguments block named
    let args := argumentTexts args rest named (← option block restNamed)
    return callText ("_jt_tests." ++ runtimeAttribute (testName name)) (operand :: args)
  | .call line callee args named rest restNamed => do
    if isSuper callee then superCall block line
    else
      let function ← expr block none callee
      let args ← exprs block args
      let rest ← option block rest
      let named ← namedArguments block named
      return callText function (argumentTexts args rest named (← option block restNamed))
  | .item _ owner index => do
    let owner ← expr block none owner
    return owner ++ "[" ++ (← expr block none index) ++ "]"
  | .attr _ owner attr => do
    if isSelf owner then return blockFunction attr 0
    else return attributeText (← expr block none owner) attr
  | .slice _ start stop step => do
    let start ← option block start
    let stop ← option block stop
    return sliceText start stop (← option block step)
  | .concat _ items => do return callText "_jt_rt.concat" (← exprs block items)
  | .compare _ first others => do
    let first ← expr block none first
    return "(" ++ " ".intercalate (first :: (← comparisons block others)) ++ ")"
  | .binary _ op left right => do
    let left ← expr block none left
    return "(" ++ left ++ " " ++ op.text ++ " " ++ (← expr block none right) ++ ")"
  | .unary _ op operand => do return unaryText op (← expr block none operand)
  | .safe _ value => expr block none value
  | .context _ => .ok "_jt_rt.context()"
  | .other line kind _ => refuse (.unknownNode kind) line
termination_by structural e => e

/-- The input of a filter. -/
def filterOperand (block input : Option String) (line : Line) (name : String) :
    Option Expr → Result String
  | some e => expr block input e
  | none => filterInput input line name
termination_by structural e => e

def exprs (block : Option String) : List Expr → Result (List String)
  | [] => .ok []
  | e :: es => do
    let e ← expr block none e
    return e :: (← exprs block es)
termination_by structural es => es

def option (block : Option String) : Option Expr → Result (Option String)
  | none => .ok none
  | some e => do return some (← expr block none e)
termination_by structural e => e

def pairs (block : Option String) : List (Expr × Expr) → Result (List String)
  | [] => .ok []
  | (key, value) :: es => do
    let key ← expr block none key
    let value ← expr block none value
    return (key ++ ": " ++ value) :: (← pairs block es)
termination_by structural es => es

def namedArguments (block : Option String) : List (String × Expr) → Result (List (String × String))
  | [] => .ok []
  | (name, e) :: es => do
    let e ← expr block none e
    return (name, e) :: (← namedArguments block es)
termination_by structural es => es

def comparisons (block : Option String) : List (CompareOp × Expr) → Result (List String)
  | [] => .ok []
  | (op, e) :: es => do
    let e ← expr block none e
    return op.text :: e :: (← comparisons block es)
termination_by structural es => es

end

mutual

/-- The text of an assignment's target, a tuple without its parentheses. -/
def target : Expr → Result String
  | .name _ id _ => .ok (identifier id)
  | .tuple _ items => do
    match ← targets items with
    | [item] => return item ++ ","
    | items => return commaSeparated items
  | .attrRef _ space attr => .ok (identifier space ++ "." ++ attr)
  | e => refuse .target e.line

def targets : List Expr → Result (List String)
  | [] => .ok []
  | e :: es => do
    let e ← target e
    return e :: (← targets es)

end

/-- A call with `extra` arguments behind its own. -/
def callWith (block : Option String) (extra : List String) : Expr → Result String
  | .call line callee args named rest restNamed => do
    if isSuper callee then superCall block line
    else
      let function ← expr block none callee
      let args ← exprs block args
      let rest ← option block rest
      let named ← namedArguments block named
      let restNamed ← option block restNamed
      return callText function (argumentTexts args rest named restNamed ++ extra)
  | e => refuse (.unknownNode e.kind) e.line

end Stencil.Compile
