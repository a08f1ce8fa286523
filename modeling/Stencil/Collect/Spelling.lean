import Stencil.Code.Name
import Stencil.Text.Blank
import Stencil.Text.Identifier

/-! Types as a checker infers them, and spellings that can be written into a module. -/
namespace Stencil.Collect

/-- An inferred type. -/
inductive Ty
  | none
  /-- A class with the module that declares it. -/
  | instance_ (fullname module : String) (args : List Ty)
  /-- A literal, as the class its value belongs to. -/
  | literal (fallback : Ty)
  | union (items : List Ty)
  | tuple (items : List Ty)
  | typedDict
  | typeOf (item : Ty)
  | callable (result : Ty)
  /-- A type that cannot be written down faithfully. -/
  | other

/-- A union has no unions among its items. -/
def Ty.unionOf (items : List Ty) : Ty :=
  .union (items.flatMap fun
    | .union inner => inner
    | t => [t])

/-- A text that can stand where a type is expected, and the modules whose names occur in it. -/
structure Spelling where
  text : String
  modules : List String
deriving DecidableEq, Repr

namespace Spelling

def any : Spelling := ⟨Code.anyType, ["typing"]⟩

/-- Every part of a name that can be imported is an identifier. -/
def importable (fullname : String) : Bool :=
  (Text.splitOnChar '.' fullname).all fun part => Text.isIdentifier part.toList

/-- A name that takes others as arguments. -/
def applied (name : String) (args : List Spelling) (modules : List String) : Spelling where
  text := name ++ "[" ++ ", ".intercalate (args.map (·.text)) ++ "]"
  modules := modules ++ args.flatMap (·.modules)

/-- Either of the alternatives; one that takes everything stands for all. -/
def either (alternatives : List Spelling) : Spelling :=
  let texts := (alternatives.map (·.text)).eraseDups
  ⟨if texts.contains Code.anyType then Code.anyType else " | ".intercalate texts,
    alternatives.flatMap (·.modules)⟩

end Spelling

mutual

/-- How a type is written. The modules are in no order. -/
def Ty.write : Ty → Spelling
  | .none => ⟨"None", []⟩
  | .literal fallback => fallback.write
  | .instance_ fullname module args =>
    if !Spelling.importable fullname then .any
    else
      match writeAll args with
      | [] => ⟨fullname, [module]⟩
      | a :: as => .applied fullname (a :: as) [module]
  | .union items => .either (writeAll items)
  | .tuple items =>
    match writeAll items with
    | [] => ⟨"builtins.tuple[()]", ["builtins"]⟩
    | a :: as => .applied "builtins.tuple" (a :: as) ["builtins"]
  | .typedDict => ⟨"builtins.dict[builtins.str, " ++ Code.anyType ++ "]", ["builtins", "typing"]⟩
  | .typeOf item => .applied "builtins.type" [item.write] ["builtins"]
  | .callable result => .applied "typing.Callable" [⟨"...", []⟩, result.write] ["typing"]
  | .other => .any
termination_by structural t => t

def writeAll : List Ty → List Spelling
  | [] => []
  | t :: ts => t.write :: writeAll ts
termination_by structural ts => ts

end

/-- The spelling of a type, its modules sorted. -/
def Ty.spelling (t : Ty) : Spelling :=
  let a := t.write
  ⟨a.text, a.modules.eraseDups.mergeSort fun x y => (compare x y).isLE⟩

end Stencil.Collect
