import Stencil.Diagnosis.Basic

/-!
Diagnostics about the same problem as one. The same line of a template is in every unit that
includes it, so a problem of a shared template is found many times.
-/
namespace Stencil.Diagnosis

/-- What two diagnostics share that are about the same problem. -/
inductive Problem
  | located (place : Location) (identifier : Option String) (message : String)
  | unlocated (file : Option Path) (line : Option Int) (identifier : Option String)
      (message : String)
deriving DecidableEq, Repr

namespace Diagnostic

variable (d e : Diagnostic)

def problem : Problem :=
  match d.chain with
  | some c => .located c.last d.identifier d.message
  | none => .unlocated d.file d.line d.identifier d.message

/-- The first diagnostic with the further render points of the second. Both have to be suppressible
for the result to be. -/
def absorb : Diagnostic :=
  { d with
    renderPoints := d.renderPoints ++ (e.renderPoints.filter (· ∉ d.renderPoints)).eraseDups
    suppressible := d.suppressible && e.suppressible }

/-- Merges a diagnostic into the one about its problem, or puts it last. -/
def mergeInto : List Diagnostic → List Diagnostic
  | [] => [d]
  | x :: xs => if x.problem = d.problem then x.absorb d :: xs else x :: mergeInto xs

end Diagnostic

/-- One diagnostic for each problem. -/
def collapse (ds : List Diagnostic) : List Diagnostic :=
  ds.foldl (fun done d => d.mergeInto done) []

end Stencil.Diagnosis
