import Stencil.Diagnosis.RenderTable
import Stencil.Observed.Injection

/-! What is asked of a type checker. -/
namespace Stencil.Checker
open Diagnosis Observed

/-- The calls that render templates, and what they give to them. Errors that belong to no file make
the rest worthless. -/
structure Collection where
  renderCalls : List RenderCall
  observations : List Observation
  errors : List String

/-- What was found, or the errors that belong to no file. -/
structure Analysis where
  findings : List Finding
  errors : List String

end Stencil.Checker

namespace Stencil

/-- A type checker. It looks at files of a tree and changes none. -/
structure Checker where
  collect : Files.Tree → List Path → Checker.Collection
  analyze : Files.Tree → List Path → Checker.Analysis

end Stencil
