import Stencil.Collect.Spelling
import Stencil.Collect.Record

/-! Calls in application code, and the records of those that render templates. -/
namespace Stencil.Collect
open Data Observed

/-- What an expression says about templates. -/
inductive Operand
  | text (value : String)
  /-- Keys and values with the types of the values. -/
  | dict (items : List (Option Operand × Operand × Ty))
  | member (owner : Operand) (name : String)
  | call (callee : Operand) (args : List Operand) (names : List (Option String)) (line : Int)
  | other

/-- A template name and whether the first argument of the call says it. -/
structure NamedTemplate where
  name : String
  first : Bool
deriving DecidableEq, Repr

/-- The template that a call renders: its first argument says it if that is a text without a name,
or else the first argument of the call that gave the object. -/
def templateOf (callee : Operand) (args : List Operand) (names : List (Option String)) :
    Option NamedTemplate :=
  match args, names with
  | .text s :: _, none :: _ => some ⟨s, true⟩
  | _, _ =>
    match callee with
    | .member (.call _ (.text s :: _) _ _) _ => some ⟨s, false⟩
    | _ => none

/-- An argument that a parameter gets: its position in the call, its name there, and its type. -/
structure Passed where
  arg : Nat
  name : Option String
  type : Ty

def variableOf (name : String) (type : Ty) : Variable :=
  let a := type.spelling
  ⟨name, a.text, a.modules⟩

/-- The variables that an argument gives to the template: one if it has a name, or else one for each
key of a dictionary that is a text. -/
def variablesOf (args : List Operand) (template : NamedTemplate) (p : Passed) : List Variable :=
  if template.first && p.arg == 0 then []
  else
    match p.name, args[p.arg]? with
    | some name, _ => [variableOf name p.type]
    | none, some (.dict items) => items.filterMap fun
        | (some (.text key), _, type) => some (variableOf key type)
        | _ => none
    | none, _ => []

/-- The records of a call in a file: the call, and what it gives to the template. Anything that is
no call, or names no template, has none. -/
def recordsOf (file : String) (parameters : List (List Passed)) :
    Operand → Checked (List Record)
  | .call callee args names line =>
    match templateOf callee args names with
    | none => .ok []
    | some template =>
      if line < 1 then .error [⟨[.key "start_line"], .greaterThanEqual⟩]
      else
        let passed := parameters.flatten.flatMap (variablesOf args template)
        .ok [⟨currentVersion, file, template.name, line, none⟩,
          ⟨currentVersion, file, template.name, line, some passed⟩]
  | _ => .ok []

/-- The functions of a list, in which commas stand between them. -/
def listedFunctions (configured : String) : List String :=
  ((Text.splitOnChar ',' configured).map fun s => String.ofList (Text.trimBlanks s.toList)).filter
    (· != "")

end Stencil.Collect
