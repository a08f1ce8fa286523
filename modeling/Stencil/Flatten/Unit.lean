import Stencil.Flatten.Composite

/-! Compiled units as units that need no other template. -/
namespace Stencil.Flatten
open Code

/-- A template with all that it includes and extends. Every chain of the source map ends with the
line a statement was written on. -/
structure FlattenedUnit where
  template : Path
  file : Path
  source : String
  sourceMap : List (Nat × Chain)
  reads : List String

def titleOf (template : Path) : String := s!"Flattened by jinjastan from {template}. Do not edit."

def unitOf (directory template : Path) (c : Composite) : FlattenedUnit :=
  let parts : Parts Chain := {
    title := titleOf template
    context := c.context.map fun v => declaration v anyType
    definitions := emitDefinitions c.definitions
    body := c.body }
  { template
    file := directory.child (fileName template)
    source := parts.source
    sourceMap := parts.sourceMap
    reads := c.context }

/-- The units by template; of several compilations of one template the last counts, in the place of
the first. -/
def latest (units : List Compile.CompiledUnit) : List Compile.CompiledUnit :=
  units.foldl
    (fun done u =>
      if done.any (·.template == u.template) then
        done.map fun v => if v.template == u.template then u else v
      else done ++ [u]) []

/-- The flattened unit of one of the templates. -/
def flattenUnit (sources : List Source) (directory template : Path) :
    Except Failure FlattenedUnit :=
  (composite sources (sources.length + 1) template).map (unitOf directory template)

/-- An error as a result. What else ends the work still does. -/
def orError : Except Failure FlattenedUnit → Except Failure (Except FlattenError FlattenedUnit)
  | .ok u => .ok (.ok u)
  | .error (.error e) => .ok (.error e)
  | .error f => .error f

/-- The unit of every template, or its error. Each template is flattened by itself. -/
def flatten (units : List Compile.CompiledUnit) (directory : Path) :
    Except Failure (List (Except FlattenError FlattenedUnit)) :=
  let units := latest units
  let sources := units.map Source.ofUnit
  units.mapM fun u => orError (flattenUnit sources directory u.template)

/-- The unit of every template. The first error ends the work. -/
def flattenStrict (units : List Compile.CompiledUnit) (directory : Path) :
    Except Failure (List FlattenedUnit) :=
  let units := latest units
  let sources := units.map Source.ofUnit
  units.mapM fun u => flattenUnit sources directory u.template

end Stencil.Flatten
