import Stencil.Source.Location

/-! What a type checker finds, and what is reported of it. -/
namespace Stencil.Diagnosis

/-- Something found on a line of a generated module. -/
structure Finding where
  file : Path
  line : Int
  message : String
  identifier : Option String
  tip : Option String
  suppressible : Bool
deriving DecidableEq, Repr

/-- A place that renders a template. -/
structure RenderPoint where
  template : Path
  location : Location
deriving DecidableEq, Repr

/-- Something that is reported. With a chain it is about the line of a template that the chain ends
with; otherwise only the place in the generated module is known. -/
structure Diagnostic where
  message : String
  identifier : Option String
  tip : Option String
  file : Option Path
  line : Option Int
  chain : Option Chain
  renderPoints : List RenderPoint
  suppressible : Bool
deriving DecidableEq, Repr

/-- The template that a diagnostic is about. -/
def Diagnostic.template (d : Diagnostic) : Option Path := d.chain.map (·.last.file)

end Stencil.Diagnosis
