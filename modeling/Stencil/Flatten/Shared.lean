import Stencil.Flatten.Unit

/-!
Templates flattened one after the other. A composite that was made for one template is there for all
others, so what many templates need is composed once.
-/
namespace Stencil.Flatten

/-- The composites that were made so far. -/
abbrev Table := List (Path × Composite)

/-- Work with a table of composites. What was made is there also after a failure. -/
abbrev Shared := ExceptT Failure (StateM Table)

namespace Shared

/-- The composite of a template from the table, where it is kept if it has to be made. -/
def kept (template : Path) (make : Shared Composite) : Shared Composite := do
  match (← get).lookup template with
  | some c => return c
  | none =>
    let c ← make
    modify ((template, c) :: ·)
    return c

/-- The composite of a template, with dependencies inside each other to a depth below the second
argument. -/
def composite (sources : List Source) : Nat → Path → Shared Composite
  | 0, _ => throw .endless
  | depth + 1, template =>
    kept template (composeAmong sources
      (fun d => (composite sources depth d).adapt (blame template d)) template)

/-- The flattened unit of one of the templates. -/
def flattenUnit (sources : List Source) (directory template : Path) : Shared FlattenedUnit :=
  unitOf directory template <$> composite sources (sources.length + 1) template

/-- The unit of every template, or its error. -/
def flatten (units : List Compile.CompiledUnit) (directory : Path) :
    Except Failure (List (Except FlattenError FlattenedUnit)) :=
  let units := latest units
  let sources := units.map Source.ofUnit
  let outcome := fun (u : Compile.CompiledUnit) =>
    ExceptT.mk (orError <$> (flattenUnit sources directory u.template).run)
  ((units.mapM outcome).run []).1

/-- The unit of every template. The first error ends the work. -/
def flattenStrict (units : List Compile.CompiledUnit) (directory : Path) :
    Except Failure (List FlattenedUnit) :=
  let units := latest units
  let sources := units.map Source.ofUnit
  ((units.mapM fun u => flattenUnit sources directory u.template).run []).1

end Shared

end Stencil.Flatten
