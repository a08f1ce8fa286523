import Stencil.Code.Name
import Stencil.Flatten.Unit
import Stencil.Observed.Section

/-! Observed types as declarations of the units they were observed for. -/
namespace Stencil.Observed
open Template Flatten

/-- The type that takes all alternatives, each once. If one of them takes everything, or if there
are none, so does the type. -/
def unionType (alternatives : List String) : String :=
  if alternatives.isEmpty || alternatives.contains Code.anyType then Code.anyType
  else " | ".intercalate alternatives.eraseDups

/-- A variable that a template was given, its type, and the modules that the type is from. -/
structure Variable where
  name : String
  type : String
  modules : List String

/-- A place that renders a template, and what it gives to it. -/
structure Observation where
  template : String
  file : Path
  line : Int
  passed : List Variable

/-- All that was observed for one template. -/
structure Sighting where
  types : List (String × List String)
  modules : List String

namespace Sighting

def empty : Sighting := ⟨[], []⟩

/-- Adds a type of a variable; the modules that are new come last. -/
def add (s : Sighting) (v : Variable) : Sighting where
  types :=
    if (s.types.lookup v.name).isSome then
      s.types.map fun e => if e.1 = v.name then (e.1, e.2 ++ [v.type]) else e
    else s.types ++ [(v.name, [v.type])]
  modules := (s.modules ++ v.modules).eraseDups

/-- The modules that have to be imported. -/
def imports (s : Sighting) : List String := s.modules.filter fun m => m != "" && m != "typing"

end Sighting

/-- The template of every observation that has one. -/
def located (lib : Library) (t : Files.Tree) (observations : List Observation) :
    Except Miss (List (Path × Observation)) :=
  observations.foldlM (fun found o =>
    match lib.resolve t o.template with
    | .ok p => .ok (found ++ [(p, o)])
    | .error (.unresolved _) => .ok found
    | .error .undecodable => .error .undecodable) []

/-- What was observed for a template. -/
def sightingOf (found : List (Path × Observation)) (template : Path) : Sighting :=
  (found.flatMap fun e => if e.1 = template then e.2.passed else []).foldl Sighting.add .empty

/-- The type of every variable: of those the unit reads, then of others that were observed. -/
def declarations (reads : List String) (s : Sighting) : List (String × String) :=
  let typeOf := fun name => unionType ((s.types.lookup name).getD [])
  reads.map (fun name => (name, typeOf name)) ++
    (s.types.filter fun e => !reads.contains e.1).map fun e => (e.1, typeOf e.1)

/-- A flattened unit whose variables have the types that were observed. -/
structure InjectedUnit where
  template : Path
  file : Path
  source : String
  sourceMap : List (Nat × Chain)
  declarations : List (String × String)

/-- Replaces the context section of a unit. A unit without such a section has no result. -/
def injectUnit (directory : Path) (s : Sighting) (u : FlattenedUnit) : Option InjectedUnit :=
  let declarations := declarations u.reads s
  let context := s.imports.map ("import " ++ ·) ++
    declarations.map fun d => Code.declaration d.1 d.2
  (replaceContext u.source context).map fun (source, lineMap) => {
    template := u.template
    file := directory.child (Code.fileName u.template)
    source
    sourceMap := u.sourceMap.filterMap fun (line, chain) =>
      (lineMap.lookup line).map fun n => (n, chain)
    declarations }

/-- The units with what was observed for them. -/
def inject (found : List (Path × Observation)) (directory : Path) (units : List FlattenedUnit) :
    Option (List InjectedUnit) :=
  units.mapM fun u => injectUnit directory (sightingOf found u.template) u

end Stencil.Observed
