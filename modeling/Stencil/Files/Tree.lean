import Stencil.Path
import Stencil.Text.Quoted

/-!
A tree of files, directories and symbolic links as a value. Places in it are lists of parts from the
root down; every place above an entry is a directory.
-/
namespace Stencil.Files

inductive Entry
  | file (bytes : ByteArray)
  | link (target : Path)
  | dir

/-- The steps that following an entry adds to a way. -/
def Entry.cost : Entry → Nat
  | .link target => target.parts.length + 1
  | _ => 0

abbrev Place := List String

/-- The steps that following each of these entries once can add to a way. -/
def costOf (entries : List (Place × Entry)) : Nat := entries.foldr (fun e n => e.2.cost + n) 0

structure Tree where
  entries : List (Place × Entry)

/-- Why something cannot be done with a file. -/
inductive Trouble
  | missing | notDirectory | isDirectory | linkLoop | exists_
deriving DecidableEq, Repr

namespace Trouble

def code : Trouble → Nat
  | missing => 2 | exists_ => 17 | notDirectory => 20 | isDirectory => 21 | linkLoop => 40

def text : Trouble → String
  | missing => "No such file or directory"
  | exists_ => "File exists"
  | notDirectory => "Not a directory"
  | isDirectory => "Is a directory"
  | linkLoop => "Too many levels of symbolic links"

end Trouble

/-- A failed operation and the path it was asked for. -/
structure Failure where
  trouble : Trouble
  path : Path

def Failure.message (f : Failure) : String :=
  s!"[Errno {f.trouble.code}] {f.trouble.text}: {Text.quote f.path.text}"

namespace Tree

variable (t : Tree)

def empty : Tree := ⟨[]⟩

/-- What is at a place, links not followed. -/
def entry? (p : Place) : Option Entry :=
  if p.isEmpty then some .dir else t.entries.lookup p

/-- The number of links that are followed before a path counts as a loop. -/
def maxLinks : Nat := 40

/-- The steps that following all links once can add to a way. -/
def linkCost : Nat := costOf t.entries

/-- A bound on the steps of a way: its own parts and those of the links. -/
def walkBound (parts : Place) : Nat := parts.length + maxLinks * t.linkCost + 1

/-- Follows `rest` from the directory `here`. The last part's own link is followed if `last` is. -/
def walk (last : Bool) : Nat → Nat → Place → Place → Except Trouble Place
  | 0, _, _, _ => .error .linkLoop
  | _, _, here, [] => .ok here
  | fuel + 1, links, here, name :: rest =>
    if name == ".." then walk last fuel links here.dropLast rest
    else
      match t.entry? (here ++ [name]) with
      | none => .error .missing
      | some .dir => walk last fuel links (here ++ [name]) rest
      | some (.file _) => if rest.isEmpty then .ok (here ++ [name]) else .error .notDirectory
      | some (.link target) =>
        if rest.isEmpty && !last then .ok (here ++ [name])
        else if links = 0 then .error .linkLoop
        else
          walk last fuel (links - 1) (if target.absolute then [] else here) (target.parts ++ rest)

/-- The place that a path leads to, links followed. -/
def follow (p : Place) : Except Trouble Place := t.walk true (t.walkBound p) maxLinks [] p

/-- The place that a path names, the link at its end not followed. -/
def locate (p : Place) : Except Trouble Place := t.walk false (t.walkBound p) maxLinks [] p

def target? (p : Place) : Option Entry :=
  match t.follow p with
  | .ok q => t.entry? q
  | .error _ => none

def isFile (p : Place) : Bool :=
  match t.target? p with
  | some (.file _) => true
  | _ => false

def isDir (p : Place) : Bool :=
  match t.target? p with
  | some .dir => true
  | _ => false

def isLink (p : Place) : Bool :=
  match t.locate p with
  | .ok q => match t.entry? q with
    | some (.link _) => true
    | _ => false
  | .error _ => false

def exists? (p : Place) : Bool := (t.target? p).isSome

/-- The content of the file that a path leads to. -/
def read (p : Place) : Except Trouble ByteArray :=
  match t.follow p with
  | .error e => .error e
  | .ok q => match t.entry? q with
    | some (.file bytes) => .ok bytes
    | some .dir => .error .isDirectory
    | _ => .error .missing

/-- Sets the entry at a place; a new one comes last. -/
def set (p : Place) (e : Entry) : Tree :=
  if t.entries.any (·.1 == p) then
    ⟨t.entries.map fun x => if x.1 == p then (p, e) else x⟩
  else ⟨t.entries ++ [(p, e)]⟩

/-- Without the entry and all below it. -/
def erase (p : Place) : Tree := ⟨t.entries.filter fun e => !p.isPrefixOf e.1⟩

/-- Follows `rest` like `walk` to where a file is or could be put. -/
def walkNew : Nat → Nat → Place → Place → Except Trouble Place
  | 0, _, _, _ => .error .linkLoop
  | _, _, _, [] => .error .isDirectory
  | fuel + 1, links, here, name :: rest =>
    if name == ".." then walkNew fuel links here.dropLast rest
    else
      match t.entry? (here ++ [name]) with
      | none => if rest.isEmpty then .ok (here ++ [name]) else .error .missing
      | some .dir => walkNew fuel links (here ++ [name]) rest
      | some (.file _) => if rest.isEmpty then .ok (here ++ [name]) else .error .notDirectory
      | some (.link target) =>
        if links = 0 then .error .linkLoop
        else walkNew fuel (links - 1) (if target.absolute then [] else here) (target.parts ++ rest)

/-- Where writing to a path puts its file: the end of the links, which need not exist. -/
def writePlace (p : Place) : Except Trouble Place := t.walkNew (t.walkBound p) maxLinks [] p

def write (p : Place) (bytes : ByteArray) : Except Trouble Tree :=
  (t.writePlace p).map fun q => t.set q (.file bytes)

/-- Makes one directory; nothing may be there. -/
def makeDir (p : Place) : Except Trouble Tree :=
  match t.follow p.dropLast with
  | .error e => .error e
  | .ok above =>
    match t.entry? above, p.getLast? with
    | some .dir, some name =>
      if name == ".." || (t.entry? (above ++ [name])).isSome then .error .exists_
      else .ok (t.set (above ++ [name]) .dir)
    | some .dir, none => .error .exists_
    | _, _ => .error .notDirectory

/-- Makes the directory unless it is there, and those above it. The parts are given backwards. -/
def makeDirsUp : List String → Except Trouble Tree
  | [] => .ok t
  | name :: above =>
    let p := (name :: above).reverse
    match t.makeDir p with
    | .ok t => .ok t
    | .error .missing => do
      let t ← makeDirsUp above
      match t.makeDir p with
      | .ok t => .ok t
      | .error e => if t.isDir p then .ok t else .error e
    | .error e => if t.isDir p then .ok t else .error e

def makeDirs (p : Place) : Except Trouble Tree := t.makeDirsUp p.reverse

/-- Makes a directory that must not be there yet, and those above it. -/
def makeNewDir (p : Place) : Except Trouble Tree :=
  match t.makeDir p with
  | .error .missing => do
    let t ← t.makeDirs p.dropLast
    t.makeDir p
  | r => r

/-- Makes a link; nothing may be there. -/
def makeLink (p : Place) (target : Path) : Except Trouble Tree :=
  (t.makeDir p).bind fun t => (t.locate p).map fun q => t.set q (.link target)

/-- Removes a file or link. -/
def removeFile (p : Place) : Tree :=
  match t.locate p with
  | .ok q => t.erase q
  | .error _ => t

/-- Removes a directory with all in it; a path that names none is left alone. -/
def removeDir (p : Place) : Tree :=
  match t.locate p with
  | .error _ => t
  | .ok q => match t.entry? q with
    | some .dir => t.erase q
    | _ => t

/-- The names directly below a place. -/
def children (p : Place) : List String :=
  t.entries.filterMap fun e =>
    if p.isPrefixOf e.1 && e.1.length == p.length + 1 then e.1.getLast? else none

/-- The entries below a directory as parts behind it; linked directories are not entered. -/
def below (p : Place) : List (Place × Entry) :=
  match t.follow p with
  | .error _ => []
  | .ok q =>
    t.entries.filterMap fun e =>
      if q.isPrefixOf e.1 && e.1.length > q.length then some (e.1.drop q.length, e.2) else none

/-- What resolving a path gives: parts that were reached, parts left over behind a loop, and what is
known of the links on the way. -/
structure Resolved where
  reached : Place
  left : Option Place
  seen : List (Place × Option Place)

/-- Replaces links and `..` parts. Parts that do not exist stay. With `strict` they are an error. -/
def resolveFrom (strict : Bool) :
    Nat → Place → Place → List (Place × Option Place) → Except Failure Resolved
  | 0, here, rest, seen => .ok ⟨here, some rest, seen⟩
  | _, here, [], seen => .ok ⟨here, none, seen⟩
  | fuel + 1, here, name :: rest, seen =>
    if name == ".." then resolveFrom strict fuel here.dropLast rest seen
    else
      let next := here ++ [name]
      match t.locate next with
      | .error e =>
        if strict then .error ⟨e, ⟨true, next⟩⟩ else resolveFrom strict fuel next rest seen
      | .ok q =>
        match t.entry? q with
        | some (.link target) =>
          match seen.lookup next with
          | some (some known) => resolveFrom strict fuel known rest seen
          | some none =>
            if strict then .error ⟨.linkLoop, ⟨true, next⟩⟩ else .ok ⟨next, some rest, seen⟩
          | none => do
            let start := if target.absolute then [] else here
            let r ← resolveFrom strict fuel start target.parts ((next, none) :: seen)
            match r.left with
            | some left => return ⟨r.reached ++ left, some rest, r.seen⟩
            | none => resolveFrom strict fuel r.reached rest ((next, some r.reached) :: r.seen)
        | _ => resolveFrom strict fuel next rest seen

/-- Why a path has no resolved form. -/
inductive Unresolved
  | failure (f : Failure)
  | loop (path : Path)

def Unresolved.message : Unresolved → String
  | failure f => f.message
  | loop path => s!"Symlink loop from {Text.quote path.text}"

/-- A bound on the steps of resolving: every link is entered once. -/
def resolveBound (p : Place) : Nat := p.length + t.linkCost + 1

/-- The path without links and `..` parts. A path that runs into a loop has none. -/
def resolve (strict : Bool) (p : Place) : Except Unresolved Place :=
  match t.resolveFrom strict (t.resolveBound p) [] p [] with
  | .error f => .error (if f.trouble = .linkLoop then .loop f.path else .failure f)
  | .ok r =>
    let q := (Path.normalized ⟨true, r.reached ++ r.left.getD []⟩).parts
    if strict then .ok q
    else
      match t.follow q with
      | .error .linkLoop => .error (.loop ⟨true, q⟩)
      | _ => .ok q

end Tree

end Stencil.Files
