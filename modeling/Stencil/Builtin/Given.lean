import Stencil.Builtin.Objects
import Stencil.Data.Access
import Stencil.Data.Json

/-! Values that are given as data, and values as data. -/
namespace Stencil.Builtin
open Data

namespace Datum

/-- The float that a number in decimal notation stands for. -/
def floatOfText (s : String) : Float :=
  match s with
  | "nan" => 0.0 / 0.0
  | "inf" => 1.0 / 0.0
  | "-inf" => -1.0 / 0.0
  | s =>
    match Json.parse? .keep s with
    | some (.float x) => x
    | some (.int n) => Float.ofInt n
    | _ => 0.0

/-- The value that data stand for. The bound is on their depth. -/
def ofValueWithin : Nat → Value → Datum
  | _, .null | _, .moment _ => nothing
  | _, .bool b => bool b
  | _, .int n => int n
  | _, .float x => float x
  | _, .str s => text s
  | 0, _ => nothing
  | bound + 1, .list items => list (items.map (ofValueWithin bound))
  | bound + 1, .table entries =>
    match entries with
    | ("float", v) :: _ => float (floatOfText v.text)
    | ("tuple", v) :: _ => tuple (v.items.map (ofValueWithin bound))
    | ("iter", v) :: _ => stream (v.items.map (ofValueWithin bound))
    | ("dict", v) :: _ => dictOf (v.items.map fun e =>
        (ofValueWithin bound (e.item 0), ofValueWithin bound (e.item 1)))
    | ("object", v) :: _ => space (v.items.map fun e =>
        ((e.item 0).text, ofValueWithin bound (e.item 1)))
    | _ => nothing

def ofValue (v : Value) : Datum := ofValueWithin v.depth v

mutual

def toValue : Datum → Value
  | nothing => .null
  | bool b => .bool b
  | int n => .int n
  | float x => .table [("float", .str (Decimal.floatText x))]
  | text s => .str s
  | list items => .list (toValues items)
  | tuple items => .table [("tuple", .list (toValues items))]
  | stream items => .table [("iter", .list (toValues items))]
  | dict entries => .table [("dict", .list (entryValues entries))]
  | space attrs => .table [("object", .list (attrValues attrs))]
termination_by structural d => d

def toValues : List Datum → List Value
  | [] => []
  | d :: ds => toValue d :: toValues ds
termination_by structural ds => ds

def entryValues : List (Datum × Datum) → List Value
  | [] => []
  | e :: es => entryValue e :: entryValues es
termination_by structural es => es

def entryValue : Datum × Datum → Value
  | (k, v) => .list [toValue k, toValue v]
termination_by structural e => e

def attrValues : List (String × Datum) → List Value
  | [] => []
  | e :: es => attrValue e :: attrValues es
termination_by structural es => es

def attrValue : String × Datum → Value
  | (name, v) => .list [.str name, toValue v]
termination_by structural e => e

end

end Datum

def Call.ofValue (values named : Value) : Call :=
  ⟨values.items.map .ofValue, named.entries.map fun e => (e.1, .ofValue e.2)⟩

end Stencil.Builtin
