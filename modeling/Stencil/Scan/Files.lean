import Stencil.Files.Text
import Stencil.Scan.IgnoreFile

/-! The files of a project that are looked at. -/
namespace Stencil.Scan

/-- Which files of a directory count. -/
structure Selection where
  suffixes : List String
  /-- Files below the directory of this name at the root are generated and do not count. -/
  scratchDir : String
  /-- If there are any, one of these patterns has to cover the path. -/
  includes : List String
  excludes : List String
  /-- Whether directories below the root have ignore files. -/
  nestedIgnores : Bool

def ignoreFileName : String := ".gitignore"

variable (t : Files.Tree) (root : Path) (s : Selection)

/-- The regular files below a directory; links are not followed. -/
def filesBelow (directory : Path) : List Path :=
  (t.below directory.parts).filterMap fun e => match e.2 with
    | .file _ => some (directory.join ⟨false, e.1⟩)
    | _ => none

/-- The path as seen from the root. -/
def relativeText (p : Path) : String := (⟨false, p.partsBelow root⟩ : Path).text

def sortByPath (ps : List Path) : List Path :=
  ps.mergeSort fun p q => (compare (relativeText root p) (relativeText root q)).isLE

/-- The ignore files that count, in the order of their paths. -/
def ignoreFiles : List Path :=
  let top := root.child ignoreFileName
  if !s.nestedIgnores then (if t.isFile top.parts then [top] else [])
  else sortByPath root ((filesBelow t root).filter fun p => p.name = ignoreFileName)

def readIgnoreFile (p : Path) : Except Fault IgnoreFile :=
  match t.readText p with
  | .ok text => IgnoreFile.ofText p.parent text
  | .error .undecodable => .error .undecodable
  | .error (.failure _) => .ok ⟨p.parent, []⟩

/-- Holds if one of the files ignores the path. With nested files those of other directories have no
say. -/
def ignoredBy (p : Path) : List IgnoreFile → Except Fault Bool
  | [] => .ok false
  | f :: fs =>
    match f.ignores p with
    | .ok true => .ok true
    | .ok false => ignoredBy p fs
    | .error e => if s.nestedIgnores && e = .outside then ignoredBy p fs else .error e

def hasSuffix (suffixes : List String) (p : Path) : Bool :=
  suffixes.any fun x => x.toList.isSuffixOf p.name.toList

/-- Holds if the path leads to something below what the root leads to. -/
def staysWithin (p : Path) : Bool :=
  match t.resolve false root.parts, t.resolve false p.parts with
  | .ok r, .ok q => r.isPrefixOf q
  | _, _ => false

def coveredBy (patterns : List String) (path : String) : Bool :=
  patterns.any fun g => (Pattern.Glob.ofString g).covers path.toList

/-- Whether a file counts. -/
def accepts (ignores : List IgnoreFile) (p : Path) : Except Fault Bool := do
  if !hasSuffix s.suffixes p || !staysWithin t root p || !p.isWithin root then return false
  if s.scratchDir != "" && (p.partsBelow root).head? = some s.scratchDir then return false
  if ← ignoredBy s p ignores then return false
  let path := relativeText root p
  return (s.includes.isEmpty || coveredBy s.includes path) && !coveredBy s.excludes path

/-- The files of a directory that count, in the order of their paths. -/
def findFiles (directory : Path) : Except Fault (List Path) := do
  if !t.isDir directory.parts then return []
  let ignores ← (ignoreFiles t root s).mapM (readIgnoreFile t)
  return sortByPath root (← (filesBelow t directory).filterM (accepts t root s ignores))

/-- The files at a path that is given: the file itself, or those below the directory. -/
def filesAt (suffixes : List String) (given : Path) : List Path :=
  if t.isDir given.parts then
    sortByPath given (((t.below given.parts).map fun e => given.join ⟨false, e.1⟩).filter fun p =>
      t.isFile p.parts && hasSuffix suffixes p)
  else if t.isFile given.parts && hasSuffix suffixes given then [given]
  else []

/-- The files that paths lead to, links resolved, each once. -/
def distinct (paths : List Path) : List Path :=
  (paths.filterMap fun p =>
    (t.resolve false p.parts).toOption.map fun q => (⟨true, q⟩ : Path)).eraseDups

/-- The files at the paths that are given, each once. -/
def findGiven (suffixes : List String) (paths : List Path) : List Path :=
  distinct t (paths.flatMap (filesAt t suffixes))

end Stencil.Scan
