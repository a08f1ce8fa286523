/-!
Shell patterns: `*` stands for any text, `?` for any character, `[…]` for a character of a set and
`[!…]` for one outside it. Nothing else is special, slashes included.
-/
namespace Stencil.Pattern

/-- What one piece of a pattern stands for. -/
inductive GlobPiece
  | star
  | any
  | char (c : Char)
  /-- A character between two of the bounds, which lie in pairs, or none of these. -/
  | set (negated : Bool) (ranges : List (Char × Char))
deriving DecidableEq, Repr

abbrev Glob := List GlobPiece

namespace Glob

/-- What stands between the brackets of a set, and what follows. A closing bracket that comes first
belongs to the set. -/
def setText? (cs : List Char) : Option (List Char × List Char) :=
  let (mark, rest) := match cs with
    | '!' :: rest => (['!'], rest)
    | rest => ([], rest)
  let (first, rest) := match rest with
    | ']' :: rest => ([']'], rest)
    | rest => ([], rest)
  match rest.dropWhile (· != ']') with
  | [] => none
  | _ :: after => some (mark ++ first ++ rest.takeWhile (· != ']'), after)

/-- Cuts a set at the hyphens that stand between two characters. The next of them comes no sooner
than `skip` characters on. -/
def chunksFrom : Nat → List Char → List Char → List (List Char)
  | _, chunk, [] => [chunk.reverse]
  | 0, chunk, '-' :: cs => chunk.reverse :: chunksFrom 2 [] cs
  | 0, chunk, c :: cs => chunksFrom 0 (c :: chunk) cs
  | skip + 1, chunk, c :: cs => chunksFrom skip (c :: chunk) cs

/-- A hyphen behind which nothing stands is a character of its own. -/
def closeLast : List (List Char) → List (List Char)
  | [c, []] => [c ++ ['-']]
  | c :: cs => c :: closeLast cs
  | [] => []

def chunks (set : List Char) : List (List Char) :=
  closeLast (chunksFrom (if set.head? == some '!' then 2 else 1) [] set)

/-- Takes out ranges that hold nothing, the last first. -/
def dropEmptyRanges : List (List Char) → List (List Char)
  | [] => []
  | c :: cs =>
    match dropEmptyRanges cs with
    | [] => [c]
    | d :: ds =>
      match c.getLast?, d with
      | some high, low :: rest =>
        if low < high then (c.dropLast ++ rest) :: ds else c :: d :: ds
      | _, _ => c :: d :: ds

/-- Joins chunks; a missing character stands for the hyphen of a range. -/
def joinChunks : List (List Char) → List (Option Char)
  | [] => []
  | [c] => c.map some
  | c :: cs => c.map some ++ none :: joinChunks cs

def rangesOf : List (Option Char) → List (Char × Char)
  | some a :: none :: some b :: rest => (a, b) :: rangesOf rest
  | some a :: rest => (a, a) :: rangesOf rest
  | none :: rest => ('-', '-') :: rangesOf rest
  | [] => []

/-- The set between two brackets. -/
def setPiece (set : List Char) : GlobPiece :=
  match joinChunks (dropEmptyRanges (chunks set)) with
  | some '!' :: rest => .set true (rangesOf rest)
  | rest => .set false (rangesOf rest)

/-- Reads a pattern; no more than `bound` pieces. A bracket that is not closed is a character. -/
def piecesOf : Nat → List Char → Glob
  | 0, _ => []
  | _, [] => []
  | bound + 1, '*' :: cs => .star :: piecesOf bound cs
  | bound + 1, '?' :: cs => .any :: piecesOf bound cs
  | bound + 1, '[' :: cs =>
    match setText? cs with
    | some (set, rest) => setPiece set :: piecesOf bound rest
    | none => .char '[' :: piecesOf bound cs
  | bound + 1, c :: cs => .char c :: piecesOf bound cs

def ofString (s : String) : Glob := piecesOf s.length s.toList

end Glob

def GlobPiece.takes (c : Char) : GlobPiece → Bool
  | star => false
  | any => true
  | char d => c == d
  | set negated ranges => negated != ranges.any fun r => r.1 ≤ c && c ≤ r.2

/-- Holds if one of the ends of a text, the whole and the empty one included, has the property. -/
def anyEnd (p : List Char → Bool) : List Char → Bool
  | [] => p []
  | c :: cs => p (c :: cs) || anyEnd p cs

/-- Holds if the pattern covers the whole text. -/
def Glob.covers : Glob → List Char → Bool
  | [], cs => cs.isEmpty
  | .star :: rest, cs => anyEnd (Glob.covers rest) cs
  | piece :: rest, c :: cs => piece.takes c && Glob.covers rest cs
  | _ :: _, [] => false

end Stencil.Pattern
