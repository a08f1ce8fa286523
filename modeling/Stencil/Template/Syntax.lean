import Stencil.Text.Quoted

/-! The syntax trees of templates. -/
namespace Stencil.Template

/-- The line of a node; nodes that no text of the template gave rise to have none. -/
abbrev Line := Option Int

/-- What a name stands for where it occurs. -/
inductive Usage
  | load
  | store
  | parameter
deriving DecidableEq, Repr

inductive Const
  | none
  | bool (value : Bool)
  | int (value : Int)
  | float (value : Float)
  | str (value : Text.Points)

inductive BinaryOp
  | add | sub | mul | div | floordiv | mod | pow | and | or
deriving DecidableEq, Repr

def BinaryOp.text : BinaryOp → String
  | add => "+" | sub => "-" | mul => "*" | div => "/" | floordiv => "//" | mod => "%"
  | pow => "**" | and => "and" | or => "or"

inductive UnaryOp
  | not | neg | pos
deriving DecidableEq, Repr

inductive CompareOp
  | eq | ne | gt | gteq | lt | lteq | in_ | notIn
deriving DecidableEq, Repr

def CompareOp.text : CompareOp → String
  | eq => "==" | ne => "!=" | gt => ">" | gteq => ">=" | lt => "<" | lteq => "<=" | in_ => "in"
  | notIn => "not in"

inductive Expr
  | name (line : Line) (id : String) (usage : Usage)
  /-- An attribute of a namespace as the target of an assignment. -/
  | attrRef (line : Line) (space attr : String)
  | const (line : Line) (value : Const)
  | data (line : Line) (text : String)
  | tuple (line : Line) (items : List Expr)
  | list (line : Line) (items : List Expr)
  | dict (line : Line) (items : List (Expr × Expr))
  | cond (line : Line) (test body : Expr) (otherwise : Option Expr)
  /-- A filter; without an input it applies to the text of a block. -/
  | filter (line : Line) (input : Option Expr) (filterName : String) (args : List Expr)
      (named : List (String × Expr)) (rest restNamed : Option Expr)
  | test (line : Line) (input : Expr) (testName : String) (args : List Expr)
      (named : List (String × Expr)) (rest restNamed : Option Expr)
  | call (line : Line) (callee : Expr) (args : List Expr)
      (named : List (String × Expr)) (rest restNamed : Option Expr)
  | item (line : Line) (owner index : Expr)
  | attr (line : Line) (owner : Expr) (attrName : String)
  | slice (line : Line) (start stop step : Option Expr)
  | concat (line : Line) (items : List Expr)
  | compare (line : Line) (first : Expr) (others : List (CompareOp × Expr))
  | binary (line : Line) (op : BinaryOp) (left right : Expr)
  | unary (line : Line) (op : UnaryOp) (operand : Expr)
  /-- A value marked as safe, always or under automatic escaping. -/
  | safe (line : Line) (value : Expr)
  | context (line : Line)
  /-- A node of a kind that no expression is. -/
  | other (line : Line) (kind : String) (children : List Expr)

namespace Expr

def line : Expr → Line
  | name l .. | attrRef l .. | const l .. | data l .. | tuple l .. | list l .. | dict l ..
  | cond l .. | filter l .. | test l .. | call l .. | item l .. | attr l .. | slice l ..
  | concat l .. | compare l .. | binary l .. | unary l .. | safe l .. | context l
  | other l .. => l

/-- The lower-case word for the kind of an expression. -/
def kind : Expr → String
  | name .. => "name"
  | attrRef .. => "nsref"
  | const .. => "const"
  | data .. => "templatedata"
  | tuple .. => "tuple"
  | list .. => "list"
  | dict .. => "dict"
  | cond .. => "condexpr"
  | filter .. => "filter"
  | test .. => "test"
  | call .. => "call"
  | item .. => "getitem"
  | attr .. => "getattr"
  | slice .. => "slice"
  | concat .. => "concat"
  | compare .. => "compare"
  | binary _ op .. => match op with
    | .add => "add" | .sub => "sub" | .mul => "mul" | .div => "div" | .floordiv => "floordiv"
    | .mod => "mod" | .pow => "pow" | .and => "and" | .or => "or"
  | unary _ op _ => match op with
    | .not => "not" | .neg => "neg" | .pos => "pos"
  | safe .. => "marksafe"
  | context .. => "contextreference"
  | other _ kind _ => kind

end Expr

mutual

inductive Stmt
  | output (line : Line) (nodes : List Expr)
  | extends_ (line : Line) (template : Expr)
  | for_ (line : Line) (target source : Expr) (body otherwise : List Stmt) (test : Option Expr)
      (recursive : Bool)
  | if_ (line : Line) (test : Expr) (body : List Stmt) (branches : List Branch)
      (otherwise : List Stmt)
  | macro_ (line : Line) (id : String) (params : List String) (defaults : List Expr)
      (body : List Stmt)
  | callBlock (line : Line) (call : Expr) (params : List String) (defaults : List Expr)
      (body : List Stmt)
  | filterBlock (line : Line) (body : List Stmt) (filter : Expr)
  | with_ (line : Line) (targets values : List Expr) (body : List Stmt)
  | block (line : Line) (id : String) (body : List Stmt) (isScoped required : Bool)
  | include_ (line : Line) (template : Expr) (withContext ignoreMissing : Bool)
  | import_ (line : Line) (template : Expr) (target : String) (withContext : Bool)
  /-- Imported names, each with the name it gets here. -/
  | fromImport (line : Line) (template : Expr) (names : List (String × String))
      (withContext : Bool)
  | exprStmt (line : Line) (value : Expr)
  | assign (line : Line) (target value : Expr)
  | assignBlock (line : Line) (target : Expr) (filter : Option Expr) (body : List Stmt)
  | scope (line : Line) (body : List Stmt)
  /-- Options that hold for a body, or from here on. -/
  | scopedOptions (line : Line) (options : List (String × Expr)) (body : List Stmt)
  | options (line : Line) (options : List (String × Expr))
  | continue_ (line : Line)
  | break_ (line : Line)
  /-- A node of a kind that no statement is. -/
  | other (line : Line) (kind : String)

/-- An `elif` branch. -/
inductive Branch
  | mk (line : Line) (test : Expr) (body : List Stmt)

end

def Stmt.line : Stmt → Line
  | .output l .. | .extends_ l .. | .for_ l .. | .if_ l .. | .macro_ l .. | .callBlock l ..
  | .filterBlock l .. | .with_ l .. | .block l .. | .include_ l .. | .import_ l .. | .fromImport l ..
  | .exprStmt l .. | .assign l .. | .assignBlock l .. | .scope l .. | .scopedOptions l ..
  | .options l .. | .continue_ l | .break_ l | .other l .. => l

/-- A parsed template. -/
structure Document where
  body : List Stmt

end Stencil.Template
