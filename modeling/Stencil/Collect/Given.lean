import Stencil.Collect.CallSite
import Stencil.Data.Access

/-! Types and the expressions of calls, given as data. -/
namespace Stencil.Collect
open Data

/-- The type that data stand for. The bound is on their depth. -/
def Ty.ofValueWithin : Nat → Value → Ty
  | 0, _ => .other
  | bound + 1, v =>
    let sub := fun name => ofValueWithin bound (v.field name)
    let subs := fun name => (v.field name).items.map (ofValueWithin bound)
    match (v.field "t").text with
    | "none" => .none
    | "instance" =>
      let name := (v.field "fullname").text
      let above := ".".intercalate (Text.splitOnChar '.' name).dropLast
      .instance_ name ((v.field "module").text?.getD above) (subs "args")
    | "literal" => .literal (sub "fallback")
    | "union" => .unionOf (subs "items")
    | "tuple" => .tuple (subs "items")
    | "typeddict" => .typedDict
    | "type" => .typeOf (sub "item")
    | "callable" => .callable (sub "ret")
    | _ => .other

def Ty.ofValue (v : Value) : Ty := ofValueWithin v.depth v

/-- The expression that data stand for. The bound is on their depth. -/
def Operand.ofValueWithin : Nat → Value → Operand
  | 0, _ => .other
  | bound + 1, v =>
    if v.has "str" then .text (v.field "str").text
    else if v.has "member" then
      .member (ofValueWithin bound ((v.field "member").item 0)) ((v.field "member").item 1).text
    else if v.has "dict" then .dict ((v.field "dict").items.map fun e =>
      ((e.item 0).present?.map (ofValueWithin bound), ofValueWithin bound (e.item 1),
        Ty.ofValue (e.item 2)))
    else if v.has "call" then
      let args := (v.field "args").items.map (ofValueWithin bound)
      .call (ofValueWithin bound (v.field "call")) args
        (if v.has "arg_names" then (v.field "arg_names").items.map (·.text?)
          else args.map fun _ => none)
        ((v.field "line").number?.getD 1)
    else .other

def Operand.ofValue (v : Value) : Operand := ofValueWithin v.depth v

/-- What was passed for a parameter: the number of the argument, its name and its type. -/
def Passed.ofValue (v : Value) : Passed :=
  ⟨(v.field "arg").number.toNat, (v.field "name").text?, .ofValue (v.field "type")⟩

end Stencil.Collect
