import Stencil.Builtin.Filters
import Stencil.Builtin.Tests

/-! The functions that generated code calls besides filters and tests. -/
namespace Stencil.Builtin

namespace Helpers
open Datum Routine

/-- Two values as a key and what belongs to it. -/
def entry (d : Datum) : Outcome (Datum × Datum) := do
  match ← d.items with
  | [k, v] => if k.isKey then return (k, v) else throw .wrongType
  | _ => throw .badValue

/-- The entries of a dictionary made from another one or from pairs. -/
def entriesOf : List Datum → Outcome (List (Datum × Datum))
  | [] => .ok []
  | [dict entries] => .ok entries
  | [d] => do (← d.items).mapM entry
  | _ => .error .wrongType

/-- The attributes of a new space. Those that are given by name replace those of a dictionary. -/
def attributes (values : List Datum) (named : List (String × Datum)) :
    Outcome (List (String × Datum)) := do
  let entries ← entriesOf values
  match dictOf (entries ++ named.map fun v => (text v.1, v.2)) with
  | dict entries => entries.mapM fun
    | (text name, d) => .ok (name, d)
    | _ => .error .wrongType
  | _ => .ok []

def newSpace (values : List Datum) (named : List (String × Datum)) : Outcome Datum :=
  if named.any (·.1 == "self") then .error .wrongType
  else do return space (← attributes values named)

def isEmpty (d : Datum) : Bool :=
  match d.size with
  | .ok n => n == 0
  | .error _ => false

def all : List (String × Routine) := [
  ("empty", fixed ["iterable"] [] fun b => .ok (bool (isEmpty (b.get 0)))),
  ("concat", variadic [] false fun b => .ok (text (String.join (b.rest.map plain)))),
  ("extends", fixed ["template"] [] fun _ => .ok nothing),
  ("include", fixed ["template"] [] fun _ => .ok (text "")),
  ("include_dynamic", fixed ["template"] [] fun _ => .ok (text "")),
  ("import_template", fixed ["template"] [] fun _ => .ok (space [])),
  ("context", fixed [] [] fun _ => .ok (dict [])),
  ("namespace", variadic [] true fun b => newSpace b.rest b.named),
  ("Namespace", variadic [] true fun b => newSpace b.rest b.named),
  ("lipsum", fixed [] [("n", int 5), ("html", bool true), ("min", int 20), ("max", int 100)]
    fun _ => .ok (text "")),
  ("no_caller", variadic [] true fun _ => .ok (text ""))]

end Helpers

/-- The modules of functions. -/
inductive Family
  | filters | tests | helpers
deriving DecidableEq, Repr

def Family.routines : Family → List (String × Routine)
  | filters => Filters.all
  | tests => Tests.all
  | helpers => Helpers.all

def Family.routine? (f : Family) (name : String) : Option Routine := f.routines.lookup name

end Stencil.Builtin
