/-! The parts of generated code that matter for finding one's way in it. -/
namespace Stencil.Code

inductive Kind
  | name
  | quoted
  | member
  | subscript
  | call
  | arguments
  | generator
  /-- A value with a star in front of it. -/
  | spread
  /-- Something in parentheses or brackets. -/
  | tuple
  | parens
  | list
  /-- A function with its name; the statements of its body are its children. -/
  | function (name : String)
  | statement
  | other
deriving DecidableEq, Repr

/-- Where a part stands: its characters, and its rows counted from zero. -/
structure Extent where
  start : Nat
  stop : Nat
  row : Nat
  endRow : Nat
deriving DecidableEq, Repr, Inhabited

inductive Node
  | mk (kind : Kind) (extent : Extent) (children : List Node)

namespace Node

def kind : Node → Kind
  | mk k _ _ => k

def extent : Node → Extent
  | mk _ e _ => e

def children : Node → List Node
  | mk _ _ cs => cs

/-- The text of a part of `source`. -/
def text (source : List Char) (n : Node) : String :=
  String.ofList ((source.drop n.extent.start).take (n.extent.stop - n.extent.start))

mutual

/-- Holds of what can be assigned to. -/
def isTarget : Node → Bool
  | mk kind _ children => match kind with
    | .name | .member | .subscript => true
    | .tuple | .parens | .list | .spread => areTargets children
    | _ => false

def areTargets : List Node → Bool
  | [] => true
  | n :: ns => n.isTarget && areTargets ns

end

/-- Holds of something in brackets that can be assigned to. -/
def isPattern (n : Node) : Bool :=
  match n.kind with
  | .tuple | .parens | .list =>
    n.isTarget && n.children.head?.any fun first => n.extent.start < first.extent.start
  | _ => false

end Node

end Stencil.Code
