import Stencil.Template.Syntax

/-! References from one template to others. -/
namespace Stencil.Template

/-- Template names, some possible at run time, in order. -/
abbrev TemplateNames := List Text.Points

def Const.text? : Const → Option Text.Points
  | str ps => some ps
  | _ => Option.none

/-- The second list's names behind those of the first, without those the first has. -/
def TemplateNames.either (first second : TemplateNames) : TemplateNames :=
  first ++ second.filter fun n => !first.contains n

mutual

/-- The names an expression can evaluate to if it is made of constants. Lists contribute every item
and conditions both branches. -/
def Expr.templateNames? : Expr → Option TemplateNames
  | .const _ value => value.text?.map ([·])
  | .list _ items | .tuple _ items => templateNamesAll? items
  | .cond _ _ body otherwise => do
    let first ← body.templateNames?
    match otherwise with
    | none => return first
    | some e => return first.either (← e.templateNames?)
  | _ => .none
termination_by structural e => e

def templateNamesAll? : List Expr → Option TemplateNames
  | [] => some []
  | e :: es => do
    let names ← e.templateNames?
    return names ++ (← templateNamesAll? es)
termination_by structural es => es

end

inductive ReferenceKind
  | extends_
  | include_
  | import_
deriving DecidableEq, Repr

def ReferenceKind.text : ReferenceKind → String
  | extends_ => "extends"
  | include_ => "include"
  | import_ => "import"

/-- A statement that refers to templates. Names that depend on the run are not known. -/
structure Reference where
  kind : ReferenceKind
  line : Line
  names : Option TemplateNames
  ignoreMissing : Bool

mutual

/-- The references in a statement, an outer one before those inside. -/
def Stmt.references : Stmt → List Reference
  | .extends_ line e => [⟨.extends_, line, e.templateNames?, false⟩]
  | .include_ line e _ ignoreMissing => [⟨.include_, line, e.templateNames?, ignoreMissing⟩]
  | .import_ line e _ _ | .fromImport line e _ _ => [⟨.import_, line, e.templateNames?, false⟩]
  | .for_ _ _ _ body otherwise _ _ => referencesAll body ++ referencesAll otherwise
  | .if_ _ _ body branches otherwise =>
    referencesAll body ++ branchReferences branches ++ referencesAll otherwise
  | .macro_ _ _ _ _ body | .callBlock _ _ _ _ body | .filterBlock _ body _ | .with_ _ _ _ body
  | .block _ _ body _ _ | .assignBlock _ _ _ body | .scope _ body | .scopedOptions _ _ body =>
    referencesAll body
  | .output .. | .exprStmt .. | .assign .. | .options .. | .continue_ _ | .break_ _
  | .other .. => []
termination_by structural s => s

def referencesAll : List Stmt → List Reference
  | [] => []
  | s :: ss => s.references ++ referencesAll ss
termination_by structural ss => ss

def branchReferences : List Branch → List Reference
  | [] => []
  | b :: bs => b.references ++ branchReferences bs
termination_by structural bs => bs

def Branch.references : Branch → List Reference
  | .mk _ _ body => referencesAll body
termination_by structural b => b

end

def Document.references (d : Document) : List Reference := referencesAll d.body

/-- The names that a template refers to others by. -/
def Document.names (d : Document) : TemplateNames := d.references.flatMap fun r => r.names.getD []

end Stencil.Template
