import Stencil.Data.Access
import Stencil.Files.Tree
import Stencil.Text.Escape

/-! Trees of files that are given as data. -/
namespace Stencil.Files.Tree
open Data

/-- Bytes that are given by two hexadecimal digits each. -/
def bytesOfHex : List Char → List UInt8
  | a :: b :: rest => ((Text.Escape.hexNumber? [a, b]).getD 0).toUInt8 :: bytesOfHex rest
  | _ => []

/-- Puts a file, link or directory at a path and makes the directories above it. Texts are files,
other things are tables. What has no place is left out. -/
def plant (t : Tree) (p : Path) (v : Value) : Tree :=
  let made := (t.makeDirs p.parent.parts).toOption.getD t
  if v.has "symlink" then
    (made.makeLink p.parts (Path.ofString (v.field "symlink").text)).toOption.getD made
  else if v.has "dir" then (t.makeDirs p.parts).toOption.getD t
  else
    let bytes := if v.has "hex" then ⟨(bytesOfHex (v.field "hex").text.toList).toArray⟩
      else v.text.toUTF8
    (made.write p.parts bytes).toOption.getD made

/-- A tree with a directory, and with files by their paths. -/
def given (root : Path) (files : Value) : Tree :=
  files.entries.foldl (fun t f => t.plant (Path.ofString f.1) f.2)
    ((empty.makeDirs root.parts).toOption.getD empty)

end Stencil.Files.Tree
