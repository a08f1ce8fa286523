import Stencil.Builtin.Helpers

/-! The objects with a state that templates work with. -/
namespace Stencil.Builtin
open Datum

inductive Kind
  | loop | cycler | joiner | space
deriving DecidableEq, Repr

/-- An object: what it is, and the values of its attributes. -/
structure Object where
  kind : Kind
  attrs : List (String × Datum)

namespace Object

/-- What an operation on an object comes to, and the object behind it. -/
abbrev Use := ExceptT Fault (StateM Object)

def ofLength (length : Datum) : Object :=
  ⟨.loop, [("index0", int 0), ("length", length), ("depth0", int 0), ("previtem", nothing),
    ("nextitem", nothing)]⟩

def cycler (items : List Datum) : Object := ⟨.cycler, [("items", tuple items), ("pos", int 0)]⟩

def joiner (sep : Datum) : Object := ⟨.joiner, [("sep", sep), ("used", bool false)]⟩

variable (o : Object)

/-- The value of an attribute that every object of the kind has. -/
def stored (name : String) : Datum := (o.attrs.lookup name).getD nothing

def store (name : String) (d : Datum) : Object :=
  { o with attrs := if (o.attrs.lookup name).isSome
      then o.attrs.map fun a => if a.1 = name then (name, d) else a
      else o.attrs ++ [(name, d)] }

/-- The attributes that follow from others and cannot be set. -/
def derived : Kind → List String
  | .loop => ["index", "revindex", "revindex0", "first", "last", "depth"]
  | .cycler => ["current"]
  | .joiner | .space => []

def index : Outcome Datum := (o.stored "index0").add (int 1)

/-- The item that a cycler is at. -/
def current : Outcome Datum :=
  if (o.stored "items").truth then (o.stored "items").item (o.stored "pos") else .ok nothing

def derive (name : String) : Outcome Datum :=
  match name with
  | "index" => o.index
  | "revindex" => (o.stored "length").sub (o.stored "index0")
  | "revindex0" => do (o.stored "length").sub (← o.index)
  | "first" => .ok (bool ((o.stored "index0").equal (int 0)))
  | "last" => do return bool ((← o.index).equal (o.stored "length"))
  | "depth" => (o.stored "depth0").add (int 1)
  | _ => o.current

def get (name : String) : Outcome Datum :=
  if (derived o.kind).contains name then o.derive name
  else
    match o.attrs.lookup name, o.kind with
    | some d, _ => .ok d
    | none, .space => .ok nothing
    | none, _ => .error .noAttribute

def assign (name : String) (d : Datum) : Use Datum := do
  if (derived (← MonadState.get).kind).contains name then throw .noAttribute
  modify fun o => o.store name d
  return nothing

/-- The value for this turn of a loop. -/
def cycle (values : List Datum) : Outcome Datum := do
  if values.isEmpty then throw .wrongType
  (tuple values).item (← (o.stored "index0").remainder (int values.length))

/-- Moves a cycler on; what it was at before. -/
def advance : Use Datum := do
  let o ← MonadState.get
  let d ← liftExcept o.current
  if (o.stored "items").truth then
    let pos ← liftExcept ((o.stored "pos").add (int 1))
    let n ← liftExcept (o.stored "items").size
    let pos ← liftExcept (pos.remainder (int n))
    modify fun o => o.store "pos" pos
  return d
where
  liftExcept {α : Type} (r : Outcome α) : Use α := ExceptT.mk (pure r)

/-- What the object itself gives when it is called. -/
def invoke (values : List Datum) : Use Datum := do
  let o ← MonadState.get
  match o.kind, values with
  | .loop, [_] => return text ""
  | .joiner, [] =>
    if (o.stored "used").truth then return o.stored "sep"
    set (o.store "used" (bool true))
    return text ""
  | _, _ => throw .wrongType

def call (method : String) (values : List Datum) : Use Datum := do
  let o ← MonadState.get
  if (derived o.kind).contains method then
    let _ ← ExceptT.mk (pure (o.derive method))
    throw .wrongType
  match o.attrs.lookup method, o.kind, method, values with
  | some _, _, _, _ => throw .wrongType
  | none, .loop, "cycle", values => ExceptT.mk (pure (o.cycle values))
  | none, .loop, "changed", _ => return bool true
  | none, .loop, "__call__", values => invoke values
  | none, .joiner, "__call__", values => invoke values
  | none, .cycler, "next", [] => advance
  | none, .cycler, "reset", [] =>
    set (o.store "pos" (int 0))
    return nothing
  | none, .cycler, "next", _ | none, .cycler, "reset", _ => throw .wrongType
  | none, .space, _, _ => throw .wrongType
  | none, _, _, _ => throw .noAttribute

/-- Makes an object of a class or with the function that makes one. -/
def make? (name : String) (c : Call) : Option (Outcome Object) :=
  let loopSignature : Signature := ⟨[⟨"length", some (int 0)⟩], false, false⟩
  let joinerSignature : Signature := ⟨[⟨"sep", some (text ", ")⟩], false, false⟩
  let anySignature : Signature := ⟨[], true, false⟩
  match name with
  | "LoopContext" => some do return ofLength ((← loopSignature.bind c).get 0)
  | "Cycler" | "cycler" => some do return cycler (← anySignature.bind c).rest
  | "Joiner" | "joiner" => some do return joiner ((← joinerSignature.bind c).get 0)
  | name =>
    (Helpers.all.lookup name).map fun f => do
      match ← f.call c with
      | .space attrs => return ⟨.space, attrs⟩
      | _ => throw .noAttribute

end Object

/-- The items of a loop, each with the state of the loop. -/
def turns (d : Datum) : Outcome (List (Object × Datum)) := do
  let ds ← d.items
  return ds.zipIdx.map fun (d, n) => ((Object.ofLength (int ds.length)).store "index0" (int n), d)

end Stencil.Builtin
