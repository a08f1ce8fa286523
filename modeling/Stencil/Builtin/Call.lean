import Stencil.Builtin.Arithmetic

/-! Calling functions with values by position and by name. -/
namespace Stencil.Builtin

/-- The values that a function is called with. -/
structure Call where
  values : List Datum
  named : List (String × Datum)

/-- Values for the parameters of a function, and those behind and beside them. -/
structure Bound where
  values : List Datum
  rest : List Datum
  named : List (String × Datum)

/-- The value of a parameter by its number. -/
def Bound.get (b : Bound) (n : Nat) : Datum := b.values.getD n .nothing

structure Parameter where
  name : String
  default : Option Datum

/-- What a function takes. -/
structure Signature where
  parameters : List Parameter
  /-- Whether there may be more values by position. -/
  rest : Bool
  /-- Whether there may be other names. -/
  others : Bool

namespace Signature

/-- The value of a parameter that was not given by position. -/
def late (c : Call) (p : Parameter) : Outcome Datum :=
  match (c.named.lookup p.name).or p.default with
  | some d => .ok d
  | none => .error .wrongType

/-- Gives every value to a parameter. No parameter may have two, and none may lack one. -/
def bind (s : Signature) (c : Call) : Outcome Bound := do
  let names := s.parameters.map (·.name)
  let taken := names.take c.values.length
  if !s.rest && c.values.length > names.length then throw .wrongType
  if c.named.any fun v => taken.contains v.1 then throw .wrongType
  if !s.others && c.named.any fun v => !names.contains v.1 then throw .wrongType
  let late ← (s.parameters.drop c.values.length).mapM (late c)
  return ⟨c.values.take names.length ++ late, c.values.drop names.length,
    c.named.filter fun v => !names.contains v.1⟩

end Signature

/-- A function of values. -/
structure Routine where
  signature : Signature
  body : Bound → Outcome Datum

namespace Routine

def call (f : Routine) (c : Call) : Outcome Datum := do f.body (← f.signature.bind c)

def required (names : List String) : List Parameter := names.map fun n => ⟨n, none⟩

/-- A function that has a value for every parameter: those it needs and those with defaults. -/
def fixed (names : List String) (defaults : List (String × Datum)) (body : Bound → Outcome Datum) :
    Routine :=
  ⟨⟨required names ++ defaults.map fun d => ⟨d.1, some d.2⟩, false, false⟩, body⟩

/-- A function that takes any further values. -/
def variadic (names : List String) (others : Bool) (body : Bound → Outcome Datum) : Routine :=
  ⟨⟨required names, true, others⟩, body⟩

end Routine

end Stencil.Builtin
