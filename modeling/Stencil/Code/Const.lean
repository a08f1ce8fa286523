import Stencil.Decimal.Shortest
import Stencil.Template.Syntax
import Stencil.Text.Quoted

/-! Constants as literals of the generated code. -/
namespace Stencil.Template.Const

def literal : Const → String
  | none => "None"
  | bool true => "True"
  | bool false => "False"
  | int n => toString n
  | float x => Decimal.floatText x
  | str ps => Text.quotePoints ps

end Stencil.Template.Const
