import Stencil.Files.Tree
import Stencil.Text.Blank

/-! Text files. They hold UTF-8, and every line end is read as one newline. -/
namespace Stencil.Files

inductive Unreadable
  | failure (f : Failure)
  /-- The bytes are not UTF-8. -/
  | undecodable

/-- The text that a file's bytes stand for. -/
def decodeText (bytes : ByteArray) : Except Unreadable String :=
  match String.fromUTF8? bytes with
  | some s => .ok (String.ofList (Text.normalizeNewlines s.toList))
  | none => .error .undecodable

namespace Tree

variable (t : Tree)

/-- The bytes of the file that a path leads to. -/
def readBytes (p : Path) : Except Failure ByteArray :=
  match t.read p.parts with
  | .ok bytes => .ok bytes
  | .error e => .error ⟨e, p⟩

def readText (p : Path) : Except Unreadable String :=
  match t.readBytes p with
  | .error f => .error (.failure f)
  | .ok bytes => decodeText bytes

def writeText (p : Path) (s : String) : Except Failure Tree :=
  match t.write p.parts s.toUTF8 with
  | .ok t => .ok t
  | .error e => .error ⟨e, p⟩

end Tree

end Stencil.Files
