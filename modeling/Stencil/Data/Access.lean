import Stencil.Data.Value

/-! Looking into data without checking it: what is not there counts as empty. -/
namespace Stencil.Data.Value

def items : Value → List Value
  | list items => items
  | _ => []

def entries : Value → List (String × Value)
  | table entries => entries
  | _ => []

def field (v : Value) (name : String) : Value := (v.entries.lookup name).getD null

def has (v : Value) (name : String) : Bool := (v.entries.lookup name).isSome

def item (v : Value) (n : Nat) : Value := v.items.getD n null

def text? : Value → Option String
  | str s => some s
  | _ => none

def text (v : Value) : String := v.text?.getD ""

def number? : Value → Option Int
  | int n => some n
  | _ => none

def number (v : Value) : Int := v.number?.getD 0

def flag (default : Bool) : Value → Bool
  | bool b => b
  | _ => default

def present? : Value → Option Value
  | null => none
  | v => some v

mutual

/-- How many levels of lists and tables there are. -/
def depth : Value → Nat
  | list items => depthOfItems items + 1
  | table entries => depthOfEntries entries + 1
  | _ => 1

def depthOfItems : List Value → Nat
  | [] => 0
  | v :: vs => max (depth v) (depthOfItems vs)

def depthOfEntries : List (String × Value) → Nat
  | [] => 0
  | (_, v) :: es => max (depth v) (depthOfEntries es)

end

end Stencil.Data.Value
