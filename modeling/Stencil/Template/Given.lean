import Stencil.Data.Access
import Stencil.Template.Syntax

/-!
Syntax trees that are given as data. A node is a table with its type and fields; a missing field is
empty, and a missing line is the first.
-/
namespace Stencil.Template
open Data

def lineOf (v : Value) : Line := if v.has "lineno" then (v.field "lineno").number? else some 1

def Const.ofValue : Value → Const
  | .bool b => .bool b
  | .int n => .int n
  | .float x => .float x
  | .str s => .str (Text.Points.ofString s)
  | _ => .none

def BinaryOp.ofType? : String → Option BinaryOp
  | "Add" => some .add | "Sub" => some .sub | "Mul" => some .mul | "Div" => some .div
  | "FloorDiv" => some .floordiv | "Mod" => some .mod | "Pow" => some .pow | "And" => some .and
  | "Or" => some .or | _ => none

def CompareOp.ofWord : String → CompareOp
  | "eq" => .eq | "ne" => .ne | "gt" => .gt | "gteq" => .gteq | "lt" => .lt | "lteq" => .lteq
  | "in" => .in_ | _ => .notIn

/-- The expression that data stand for. The bound is on the depth of the tree. -/
def Expr.ofValueWithin : Nat → Value → Expr
  | 0, v => .other (lineOf v) (v.field "type").text []
  | bound + 1, v =>
    let l := lineOf v
    let s := fun name => (v.field name).text
    let sub := fun name => ofValueWithin bound (v.field name)
    let sub? := fun name => (v.field name).present?.map (ofValueWithin bound)
    let subs := fun name => (v.field name).items.map (ofValueWithin bound)
    let named := (v.field "kwargs").items.map fun k =>
      ((k.field "key").text, ofValueWithin bound (k.field "value"))
    let rest := sub? "dyn_args"
    let restNamed := sub? "dyn_kwargs"
    match s "type" with
    | "Name" => .name l (s "name") (if s "ctx" == "load" then .load else .store)
    | "NSRef" => .attrRef l (s "name") (s "attr")
    | "Const" => .const l (Const.ofValue (v.field "value"))
    | "TemplateData" => .data l (s "data")
    | "Tuple" => .tuple l (subs "items")
    | "List" => .list l (subs "items")
    | "Dict" => .dict l ((v.field "items").items.map fun p =>
        (ofValueWithin bound (p.field "key"), ofValueWithin bound (p.field "value")))
    | "CondExpr" => .cond l (sub "test") (sub "expr1") (sub? "expr2")
    | "Filter" => .filter l (sub? "node") (s "name") (subs "args") named rest restNamed
    | "Test" => .test l (sub "node") (s "name") (subs "args") named rest restNamed
    | "Call" => .call l (sub "node") (subs "args") named rest restNamed
    | "Getitem" => .item l (sub "node") (sub "arg")
    | "Getattr" => .attr l (sub "node") (s "attr")
    | "Slice" => .slice l (sub? "start") (sub? "stop") (sub? "step")
    | "Concat" => .concat l (subs "nodes")
    | "Compare" => .compare l (sub "expr") ((v.field "ops").items.map fun o =>
        (CompareOp.ofWord (o.field "op").text, ofValueWithin bound (o.field "expr")))
    | "Not" => .unary l .not (sub "node")
    | "Neg" => .unary l .neg (sub "node")
    | "Pos" => .unary l .pos (sub "node")
    | "MarkSafe" | "MarkSafeIfAutoescape" => .safe l (sub "expr")
    | "ContextReference" | "DerivedContextReference" => .context l
    | kind =>
      match BinaryOp.ofType? kind with
      | some op => .binary l op (sub "left") (sub "right")
      | none => .other l kind (subs "nodes" ++ ["expr", "key", "value"].filterMap fun name =>
          if (v.field name).has "type" then some (sub name) else none)

def Expr.ofValue (v : Value) : Expr := ofValueWithin v.depth v

/-- An imported name, which may get another name. -/
def importedName (v : Value) : String × String :=
  match v.text? with
  | some s => (s, s)
  | none => (((v.field "pair").item 0).text, ((v.field "pair").item 1).text)

/-- The statement that data stand for. The bound is on the depth of the tree. -/
def Stmt.ofValueWithin : Nat → Value → Stmt
  | 0, v => .other (lineOf v) (v.field "type").text
  | bound + 1, v =>
    let l := lineOf v
    let s := fun name => (v.field name).text
    let flag := fun name => (v.field name).flag false
    let sub := fun name => Expr.ofValue (v.field name)
    let sub? := fun name => (v.field name).present?.map Expr.ofValue
    let subs := fun name => (v.field name).items.map Expr.ofValue
    let stmts := fun (v : Value) (name : String) => (v.field name).items.map (ofValueWithin bound)
    let params := (v.field "args").items.map fun a => (a.field "name").text
    let options := (v.field "options").items.map fun k =>
      ((k.field "key").text, Expr.ofValue (k.field "value"))
    let body := stmts v "body"
    match s "type" with
    | "Output" => .output l (subs "nodes")
    | "Extends" => .extends_ l (sub "template")
    | "For" =>
      .for_ l (sub "target") (sub "iter") body (stmts v "else_") (sub? "test") (flag "recursive")
    | "If" => .if_ l (sub "test") body ((v.field "elif_").items.map fun e =>
        .mk (lineOf e) (Expr.ofValue (e.field "test")) (stmts e "body")) (stmts v "else_")
    | "Macro" => .macro_ l (s "name") params (subs "defaults") body
    | "CallBlock" => .callBlock l (sub "call") params (subs "defaults") body
    | "FilterBlock" => .filterBlock l body (sub "filter")
    | "With" => .with_ l (subs "targets") (subs "values") body
    | "Block" => .block l (s "name") body (flag "scoped") (flag "required")
    | "Include" => .include_ l (sub "template") (flag "with_context") (flag "ignore_missing")
    | "Import" => .import_ l (sub "template") (s "target") (flag "with_context")
    | "FromImport" => .fromImport l (sub "template") ((v.field "names").items.map importedName)
        (flag "with_context")
    | "ExprStmt" => .exprStmt l (sub "node")
    | "Assign" => .assign l (sub "target") (sub "node")
    | "AssignBlock" => .assignBlock l (sub "target") (sub? "filter") body
    | "Scope" => .scope l body
    | "ScopedEvalContextModifier" => .scopedOptions l options body
    | "EvalContextModifier" => .options l options
    | "Continue" => .continue_ l
    | "Break" => .break_ l
    | kind => .other l kind

def Stmt.ofValue (v : Value) : Stmt := ofValueWithin v.depth v

end Stencil.Template
