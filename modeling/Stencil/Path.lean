import Stencil.Text.Blank

/-! Slash-separated paths as texts; nothing here looks at files. -/
namespace Stencil

/-- A path without empty and `.` parts. Parts `..` stay as they are. -/
structure Path where
  absolute : Bool
  parts : List String
deriving DecidableEq, Repr, Inhabited

namespace Path

def splitParts (s : String) : List String :=
  (Text.splitOnChar '/' s).filter fun p => p != "" && p != "."

def ofString (s : String) : Path := ⟨s.toList.head? == some '/', splitParts s⟩

def text (p : Path) : String :=
  if p.absolute then "/" ++ "/".intercalate p.parts
  else if p.parts.isEmpty then "." else "/".intercalate p.parts

instance : ToString Path := ⟨text⟩

/-- The last part; the root has none. -/
def name (p : Path) : String := p.parts.getLastD ""

/-- An absolute path stands for itself wherever it is joined. -/
def join (base p : Path) : Path :=
  if p.absolute then p else ⟨base.absolute, base.parts ++ p.parts⟩

def child (base : Path) (part : String) : Path := ⟨base.absolute, base.parts ++ [part]⟩

/-- The path without its last part. -/
def parent (p : Path) : Path := ⟨p.absolute, p.parts.dropLast⟩

/-- Holds if `base` is `p` or above it. -/
def isWithin (p base : Path) : Bool :=
  p.absolute == base.absolute && base.parts.isPrefixOf p.parts

/-- The parts behind `base`. -/
def partsBelow (p base : Path) : List String := p.parts.drop base.parts.length

/-- From the last point of the name on; nothing if that point leads or ends the name. -/
def suffix (p : Path) : String :=
  let cs := p.name.toList
  let tail := Text.takeEndWhile (· ≠ '.') cs
  let before := cs.length - tail.length
  if tail.isEmpty || before ≤ 1 then "" else String.ofList ('.' :: tail)

/-- Puts a part in front of those done, which stand backwards; `..` takes the one before it back. -/
def collapse (done : List String) (p : String) : List String :=
  if p == ".." then
    match done with
    | [] => [".."]
    | q :: rest => if q == ".." then ".." :: done else rest
  else p :: done

/-- Takes `..` parts back together with the part before them. -/
def collapseParts (parts : List String) : List String := (parts.foldl collapse []).reverse

/-- The path without `..` parts where they can be taken back; above the root is the root. -/
def normalized (p : Path) : Path :=
  if p.absolute then ⟨true, (collapseParts p.parts).dropWhile (· == "..")⟩
  else ⟨false, collapseParts p.parts⟩

/-- Parts of two lists without their common beginning. -/
def withoutCommon : List String → List String → List String × List String
  | a :: as, b :: bs => if a == b then withoutCommon as bs else (a :: as, b :: bs)
  | as, bs => (as, bs)

/-- How to get from `base` to `p`, both absolute: up with `..`, then down. -/
def relativeTo (p base : Path) : Path :=
  let (down, up) := withoutCommon p.normalized.parts base.normalized.parts
  ⟨false, up.map (fun _ => "..") ++ down⟩

end Path

end Stencil
