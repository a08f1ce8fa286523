import Stencil.Code.Name

/-!
The layout of generated modules. A module has a title, fixed imports, a context section between two
markers, and one function with its definitions, a buffer and a body. Every statement is one line.
-/
namespace Stencil.Code

def step : String := "    "

def contextStart : String := "# jinjastan: context"

def contextEnd : String := "# jinjastan: end context"

def renderFunction : String := "_jt_render"

def outputBuffer : String := "_jt_out"

/-- The first line of a function that collects output. -/
def prologue : String := outputBuffer ++ ": list[str] = []"

/-- Its last line. -/
def epilogue : String := "return \"\".join(" ++ outputBuffer ++ ")"

def headerImports : List String := [
  "from __future__ import annotations",
  "",
  "import typing",
  "",
  "from jinjastan_runtime import filters as _jt_filters",
  "from jinjastan_runtime import runtime as _jt_rt",
  "from jinjastan_runtime import tests as _jt_tests",
  ""]

/-- A statement, how deep it is nested, and where it came from. -/
structure CodeLine (α : Type) where
  indent : Int
  code : String
  origin : Option α
deriving DecidableEq, Repr

namespace CodeLine

variable {α : Type} (l : CodeLine α)

def shifted (levels : Int) : CodeLine α := { l with indent := l.indent + levels }

/-- The line inside the render function. -/
def text : String := String.join (List.replicate (l.indent + 1).toNat step) ++ l.code

@[simp] theorem shifted_code (n : Int) : (l.shifted n).code = l.code := rfl

@[simp] theorem shifted_origin (n : Int) : (l.shifted n).origin = l.origin := rfl

@[simp] theorem shifted_indent (n : Int) : (l.shifted n).indent = l.indent + n := rfl

end CodeLine

/-- A line that came from nowhere. -/
def scaffold {α : Type} (indent : Int) (code : String) : CodeLine α := ⟨indent, code, none⟩

/-- What a module is made of. -/
structure Parts (α : Type) where
  title : String
  context : List String
  definitions : List (CodeLine α)
  body : List (CodeLine α)

namespace Parts

variable {α : Type} (p : Parts α)

/-- The lines above the statements. -/
def head : List String :=
  ("# " ++ p.title) :: headerImports ++ contextStart :: p.context ++
    [contextEnd, "", "", "def " ++ renderFunction ++ "() -> str:"]

/-- The statements of the render function. -/
def statements : List (CodeLine α) :=
  p.definitions ++ scaffold 0 prologue :: p.body ++ [scaffold 0 epilogue]

/-- Every line of the module. -/
def lines : List String := p.head ++ p.statements.map CodeLine.text

def source : String := "\n".intercalate p.lines ++ "\n"

/-- The origins of lines that start at number `n`, the numbers with them. -/
def originsFrom : Nat → List (CodeLine α) → List (Nat × α)
  | _, [] => []
  | n, l :: ls =>
    match l.origin with
    | some o => (n, o) :: originsFrom (n + 1) ls
    | none => originsFrom (n + 1) ls

/-- From line numbers, counted from one, to origins. -/
def sourceMap : List (Nat × α) := originsFrom (p.head.length + 1) p.statements

end Parts

end Stencil.Code
