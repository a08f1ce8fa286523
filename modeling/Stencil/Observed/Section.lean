import Stencil.Code.Layout
import Stencil.Text.Blank

/-! The context section of a generated module, which can be replaced. -/
namespace Stencil.Observed
open Code

/-- The lines of a module: down to the start of the context section, within it, and from its end
on. -/
structure Sections where
  above : List String
  context : List String
  below : List String

namespace Sections

variable (s : Sections)

/-- Cuts at the first start marker and the first end marker after it. -/
def ofLines? (lines : List String) : Option Sections :=
  match lines.span (· != contextStart) with
  | (above, start :: rest) =>
    match rest.span (· != contextEnd) with
    | (context, stop :: below) => some ⟨above ++ [start], context, stop :: below⟩
    | _ => none
  | _ => none

def lines : List String := s.above ++ s.context ++ s.below

def source : String := "\n".intercalate s.lines ++ "\n"

/-- The module with another context section. -/
def withContext (context : List String) : Sections := { s with context }

/-- The numbers of the lines outside the context section, counted from one, when it has `n`
lines. -/
def outerLines (n : Nat) : List Nat :=
  List.range' 1 s.above.length ++ List.range' (s.above.length + n + 1) s.below.length

/-- From the old numbers of the outer lines to the new ones. -/
def lineMap (context : List String) : List (Nat × Nat) :=
  (s.outerLines s.context.length).zip (s.outerLines context.length)

end Sections

/-- The source with another context section, and where its other lines went. -/
def replaceContext (source : String) (context : List String) :
    Option (String × List (Nat × Nat)) :=
  (Sections.ofLines? (Text.lines source)).map fun s =>
    ((s.withContext context).source, s.lineMap context)

end Stencil.Observed
