import Stencil.Diagnosis.Basic
import Stencil.Flatten.Unit
import Stencil.Text.Natural

/-! Which places render which template. -/
namespace Stencil.Diagnosis
open Template Flatten

/-- A call that renders a template. -/
structure RenderCall where
  template : String
  file : Path
  line : Int

/-- Templates with the places that render them. -/
abbrev RenderTable := List (Path × List RenderPoint)

/-- The unit in a file; of several the last one written. -/
def unitIn (units : List FlattenedUnit) (file : Path) : Option FlattenedUnit :=
  units.reverse.find? (·.file = file)

/-- What a line of a source map stands for. -/
def chainAt (sourceMap : List (Nat × Chain)) (line : Int) : Option Chain :=
  (sourceMap.find? fun e => (e.1 : Int) = line).map (·.2)

/-- Where a call was written: generated code was written on the line of a template. -/
def callSite (units : List FlattenedUnit) (call : RenderCall) : Location :=
  match unitIn units call.file with
  | none => ⟨call.file, some call.line⟩
  | some u =>
    match chainAt u.sourceMap call.line with
    | some c => c.last
    | none => ⟨u.template, some call.line⟩

namespace RenderPoint

variable (p q : RenderPoint)

def naturalKey : Text.NaturalKey := .ofString p.location.file.text

/-- Holds of points in files whose names have a number that is too long to be read. -/
def isUnreadable : Bool := Text.NaturalKey.hasLongNumber p.location.file.text.toList

/-- Points are in the natural order of their files, then of their lines. Different files can be alike in
this order, and then so can points be. -/
def compare : Ordering :=
  (Text.NaturalKey.compare p.naturalKey q.naturalKey).then
    (Ord.compare p.location.line q.location.line)

/-- Holds if the files are alike and only one of the points has a line. No order is known of these. -/
def clashes : Bool :=
  Text.NaturalKey.compare p.naturalKey q.naturalKey == .eq &&
    p.location.line.isSome != q.location.line.isSome

end RenderPoint

/-- The order in which a set gives the points that were put into it, each of them once. It cannot be told
from the points. -/
structure SetOrder where
  list : List RenderPoint → List RenderPoint
  perm_list (points : List RenderPoint) : (list points).Perm points.eraseDups

namespace SetOrder

/-- Points as they came. -/
def asPut : SetOrder := ⟨List.eraseDups, fun _ => .refl _⟩

end SetOrder

/-- Why points cannot be sorted. -/
inductive Disorder
  | longNumber
  | missingLine
deriving DecidableEq, Repr

/-- Sorts the points of a set. Points that are alike stay in the order of the set. -/
def sortPoints (order : SetOrder) (points : List RenderPoint) :
    Except Disorder (List RenderPoint) :=
  let points := order.list points
  if points.any (·.isUnreadable) then .error .longNumber
  else if points.any fun p => points.any (p.clashes ·) then .error .missingLine
  else .ok (points.mergeSort fun p q => (p.compare q).isLE)

/-- The point of a call, if its template is known. -/
def pointOf (lib : Library) (t : Files.Tree) (units : List FlattenedUnit) (call : RenderCall) :
    Except Miss (Option RenderPoint) :=
  match lib.resolve t call.template with
  | .ok p => .ok (some ⟨p, callSite units call⟩)
  | .error (.unresolved _) => .ok none
  | .error .undecodable => .error .undecodable

/-- Why there is no table. -/
inductive Untabled
  | miss (m : Miss)
  | disorder (d : Disorder)

/-- The entry of a template, made of a set of points with the given order. -/
def entryOf (order : SetOrder) (points : List RenderPoint) (template : Path) :
    Except Untabled (Path × List RenderPoint) :=
  match sortPoints order (points.filter (·.template = template)) with
  | .ok sorted => .ok (template, sorted)
  | .error d => .error (.disorder d)

/-- The points of every template that is rendered, from sets with the given order. -/
def renderTableIn (order : SetOrder) (lib : Library) (t : Files.Tree)
    (units : List FlattenedUnit) (calls : List RenderCall) : Except Untabled RenderTable :=
  match calls.mapM (pointOf lib t units) with
  | .error m => .error (.miss m)
  | .ok found =>
    let points := found.filterMap id
    (points.map (·.template)).eraseDups.mapM (entryOf order points)

/-- The points of every template that is rendered; calls of unknown templates are left out. -/
def renderTable (lib : Library) (t : Files.Tree) (units : List FlattenedUnit)
    (calls : List RenderCall) : Except Untabled RenderTable :=
  renderTableIn .asPut lib t units calls

end Stencil.Diagnosis
