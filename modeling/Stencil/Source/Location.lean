import Stencil.Path

/-! Lines of files, and chains of them that lead from an outer file to an inner one. -/
namespace Stencil

/-- A line of a file, counted from one. Some generated statements have no line. -/
structure Location where
  file : Path
  line : Option Int
deriving DecidableEq, Repr

namespace Location

def lineText : Option Int → String
  | some n => toString n
  | none => "None"

/-- The location as text, its file as seen from a directory if one is given. -/
def text (l : Location) (base : Option Path) : String :=
  let file := match base with
    | none => l.file
    | some b => l.file.relativeTo b
  s!"{file}:{lineText l.line}"

end Location

/-- Locations, the outermost first. There is at least one. -/
structure Chain where
  head : Location
  tail : List Location
deriving DecidableEq, Repr

namespace Chain

variable (c : Chain) (l : Location)

def toList : List Location := c.head :: c.tail

def ofList? : List Location → Option Chain
  | [] => none
  | l :: ls => some ⟨l, ls⟩

def single : Chain := ⟨l, []⟩

/-- The innermost location: the one a line was written on. -/
def last : Location := c.tail.getLastD c.head

def length : Nat := c.tail.length + 1

/-- The chain with a new outermost link. -/
def wrap : Chain := ⟨l, c.toList⟩

/-- The chain behind the links of an outer one. -/
def within (outer : Chain) : Chain := ⟨outer.head, outer.tail ++ c.toList⟩

def text (base : Option Path) : String :=
  " > ".intercalate (c.toList.map (·.text base))

@[simp] theorem toList_single : (single l).toList = [l] := rfl

@[simp] theorem toList_wrap : (c.wrap l).toList = l :: c.toList := rfl

@[simp] theorem toList_within (outer : Chain) :
    (c.within outer).toList = outer.toList ++ c.toList := rfl

@[simp] theorem last_single : (single l).last = l := rfl

@[simp] theorem last_wrap : (c.wrap l).last = c.last := List.getLastD_cons ..

end Chain

end Stencil
