import Stencil.Diagnosis.Basic

/-!
Baselines: the diagnostics that a project has accepted. They are told apart by message, identifier
and template, not by line, so a baseline outlives edits of the templates.
-/
namespace Stencil.Baseline
open Diagnosis

/-- Diagnostics that are alike, and how many there are. The template is given as seen from the
directory of the baseline. -/
structure Entry where
  message : String
  identifier : Option String
  template : String
  count : Nat
deriving DecidableEq, Repr

namespace Entry

/-- By template, then by message, then by identifier; none counts as the empty one. -/
def compare (a b : Entry) : Ordering :=
  (Ord.compare a.template b.template).then
    ((Ord.compare a.message b.message).then
      (Ord.compare (a.identifier.getD "") (b.identifier.getD "")))

end Entry

/-- What is the same in diagnostics that are alike. -/
abbrev Likeness := String × Option String × String

/-- A diagnostic that can be suppressed and yet belongs to no template. -/
structure Lost where
  diagnostic : Diagnostic

def Lost.message (e : Lost) : String :=
  s!"Suppressible diagnostic without a template location: {e.diagnostic.message}"

/-- What the diagnostic is like, seen from a directory. -/
def likeness (directory : Path) (d : Diagnostic) : Except Lost Likeness :=
  match d.template with
  | some p => .ok (d.message, d.identifier, (p.relativeTo directory).text)
  | none => .error ⟨d⟩

/-- One entry for all that are alike, in the order of entries. -/
def countAlike (ls : List Likeness) : List Entry :=
  (ls.eraseDups.map fun l => (⟨l.1, l.2.1, l.2.2, ls.count l⟩ : Entry)).mergeSort fun a b =>
    (a.compare b).isLE

/-- The baseline of the diagnostics that can be suppressed, for a file in the directory. -/
def entriesOf (directory : Path) (ds : List Diagnostic) : Except Lost (List Entry) :=
  ((ds.filter (·.suppressible)).mapM (likeness directory)).map countAlike

end Stencil.Baseline
