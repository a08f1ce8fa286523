import Stencil.Builtin.Call
import Stencil.Flatten.Composite
import Stencil.Text.Case

/-! What the built-in tests say of values. -/
namespace Stencil.Builtin.Tests
open Datum Routine

/-- A test that looks at a value by itself. -/
def that (holds : Datum → Bool) : Routine :=
  fixed ["value"] [] fun b => .ok (bool (holds (b.get 0)))

def ofText (holds : String → Bool) : Routine :=
  fixed ["value"] [] fun b => do return bool (holds (← (b.get 0).asText))

/-- A test that compares a value with another. -/
def comparing (holds : Datum → Datum → Outcome Bool) : Routine :=
  fixed ["value", "other"] [] fun b => do return bool (← holds (b.get 0) (b.get 1))

def ordering (r : Relation) : Routine := comparing (ordered r)

/-- Holds if the remainder of dividing by a number is another one. -/
def leaves (d divisor rest : Datum) : Outcome Datum := do
  return bool ((← d.remainder divisor).equal rest)

/-- Whether a value is in another: a key of a dictionary, a part of a text, an item of the rest. -/
def isIn (d seq : Datum) : Outcome Bool :=
  match seq with
  | text s => match d with
    | text part => .ok (Flatten.occursIn part.toList s.toList)
    | _ => .error .wrongType
  | dict entries =>
    if d.isKey then .ok (entries.any fun e => e.1.equal d) else .error .wrongType
  | seq => do return (← seq.items).any (d.equal ·)

def isBool : Datum → Bool
  | .bool _ => true
  | _ => false

def isInteger : Datum → Bool
  | int _ => true
  | _ => false

def isFloat : Datum → Bool
  | float _ => true
  | _ => false

def isText : Datum → Bool
  | text _ => true
  | _ => false

def isMapping : Datum → Bool
  | dict _ => true
  | _ => false

def isSpace : Datum → Bool
  | space _ => true
  | _ => false

def equalTo : Routine := comparing fun a b => .ok (a.equal b)

/-- The tests by the names that generated code has for them. A space seems to have any attribute, so
it passes every test that asks for one. -/
def all : List (String × Routine) := [
  ("defined", that fun _ => true),
  ("undefined", that fun _ => false),
  ("none", that fun d => d.same nothing),
  ("boolean", that isBool),
  ("false", that fun d => d.same (bool false)),
  ("true", that fun d => d.same (bool true)),
  ("integer", that isInteger),
  ("float_", that isFloat),
  ("number", that fun d => d.number?.isSome),
  ("string", that isText),
  ("mapping", that isMapping),
  ("sequence", that fun d => isSpace d || d.size.isOk),
  ("iterable", that fun d => isSpace d || d.items.isOk),
  ("callable_", that fun _ => false),
  ("odd", fixed ["value"] [] fun b => leaves (b.get 0) (int 2) (int 1)),
  ("even", fixed ["value"] [] fun b => leaves (b.get 0) (int 2) (int 0)),
  ("divisibleby", fixed ["value", "num"] [] fun b => leaves (b.get 0) (b.get 1) (int 0)),
  ("eq", equalTo),
  ("equalto", equalTo),
  ("ne", comparing fun a b => .ok (!a.equal b)),
  ("lt", ordering .lt),
  ("lessthan", ordering .lt),
  ("le", ordering .le),
  ("gt", ordering .gt),
  ("greaterthan", ordering .gt),
  ("ge", ordering .ge),
  ("in_", fixed ["value", "seq"] [] fun b => do return bool (← isIn (b.get 0) (b.get 1))),
  ("sameas", comparing fun a b => .ok (a.same b)),
  ("escaped", that isSpace),
  ("lower", ofText Text.isLower),
  ("upper", ofText Text.isUpper),
  ("filter_", that fun _ => true),
  ("test", that fun _ => true)]

end Stencil.Builtin.Tests
