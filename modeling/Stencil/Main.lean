import Stencil.Checker.Mypy
import Stencil.CommandLine.Run

/-!
The program on a disk. It reads the files below the current directory and below the root of the
project, runs the analysis on them and writes back what has changed.
-/
namespace Stencil.Disk

/-- Adds what is below a directory to a tree. Links are kept as links to where they end. -/
partial def read (t : Files.Tree) (directory : Path) : IO Files.Tree := do
  let mut t := (t.makeDirs directory.parts).toOption.getD t
  for e in ← (System.mkFilePath [directory.text]).readDir do
    let p := directory.child e.fileName
    let real := Path.ofString (← IO.FS.realPath e.path).toString
    if real != p then t := (t.makeLink p.parts real).toOption.getD t
    else if ← e.path.isDir then t ← read t p
    else t := (t.write p.parts (← IO.FS.readBinFile e.path)).toOption.getD t
  return t

def isSame : Files.Entry → Files.Entry → Bool
  | .file a, .file b => a == b
  | .link p, .link q => p == q
  | .dir, .dir => true
  | _, _ => false

/-- Makes the changes that lead from one tree to another. -/
def write (before after : Files.Tree) : IO Unit := do
  for (place, entry) in before.entries do
    let p := (⟨true, place⟩ : Path).text
    if (after.entry? place).isNone then
      match entry with
      | .dir => if ← (System.mkFilePath [p]).isDir then IO.FS.removeDirAll p
      | _ => if ← (System.mkFilePath [p]).pathExists then IO.FS.removeFile p
  for (place, entry) in after.entries do
    let p := (⟨true, place⟩ : Path).text
    if !(before.entry? place).any (isSame entry) then
      match entry with
      | .dir => IO.FS.createDirAll p
      | .file bytes => IO.FS.writeBinFile p bytes
      | .link _ => pure ()

/-- The type checker as it is where no other program can be started. -/
def checker : Checker :=
  let (_, errors) := (Checker.Outcome.notStarted "no program can be started").read
  ⟨fun _ _ => ⟨[], [], errors⟩, fun _ _ => ⟨[], errors⟩⟩

def usage : String := "usage: stencil analyze [--root ROOT] [--debug] [-b [FILE]] [paths ...]"

/-- Runs the program; the number is its status. -/
def run (args : List String) : IO UInt32 := do
  let directory := Path.ofString (← IO.FS.realPath ".").toString
  match CommandLine.read args with
  | .error .help =>
    IO.println usage
    return 0
  | .error .misuse =>
    IO.eprintln usage
    return 2
  | .ok a =>
    let root := directory.join (Path.ofString (← IO.FS.realPath a.root).toString)
    let inner ← read .empty directory
    let before ← if root.isWithin directory then pure inner else read inner root
    let (ending, after) := CommandLine.analyze checker before directory a
    write before after
    match ending with
    | .error _ => return 1
    | .ok e =>
      IO.print e.output
      IO.eprint e.errors
      return UInt32.ofNat e.status

end Stencil.Disk

/-- Analyzes the templates of a project. -/
def main (args : List String) : IO UInt32 := Stencil.Disk.run args
