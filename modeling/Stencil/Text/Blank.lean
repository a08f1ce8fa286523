/-! Blank characters, trimming, and the splitting of texts into words and lines. -/
namespace Stencil.Text

/-- White space of any script. -/
def isBlank (c : Char) : Bool :=
  let n := c.toNat
  (9 ≤ n && n ≤ 13) || (28 ≤ n && n ≤ 32) || n == 0x85 || n == 0xa0 || n == 0x1680 ||
    (0x2000 ≤ n && n ≤ 0x200a) || n == 0x2028 || n == 0x2029 || n == 0x202f || n == 0x205f ||
    n == 0x3000

/-- The characters at which a text breaks into lines. -/
def isLineBreak (c : Char) : Bool :=
  let n := c.toNat
  (10 ≤ n && n ≤ 13) || (28 ≤ n && n ≤ 30) || n == 0x85 || n == 0x2028 || n == 0x2029

variable {p : Char → Bool} {cs ds : List Char}

/-- Drops the longest end of `cs` whose characters satisfy `p`. -/
def dropEndWhile (p : Char → Bool) (cs : List Char) : List Char :=
  (cs.reverse.dropWhile p).reverse

/-- The longest end of `cs` whose characters satisfy `p`. -/
def takeEndWhile (p : Char → Bool) (cs : List Char) : List Char :=
  (cs.reverse.takeWhile p).reverse

theorem dropEndWhile_append_takeEndWhile : dropEndWhile p cs ++ takeEndWhile p cs = cs := by
  rw [dropEndWhile, takeEndWhile, ← List.reverse_append, List.takeWhile_append_dropWhile,
    List.reverse_reverse]

def trimWith (p : Char → Bool) (cs : List Char) : List Char :=
  dropEndWhile p (cs.dropWhile p)

/-- Without the blanks at both ends. -/
def trimBlanks (cs : List Char) : List Char := trimWith isBlank cs

/-- Holds of texts of blanks, the empty one included. -/
def allBlank (s : String) : Bool := s.toList.all isBlank

/-- Cuts at every occurrence of a character that satisfies `p`. -/
def splitAt (p : Char → Bool) : List Char → List (List Char)
  | [] => [[]]
  | c :: cs =>
    if p c then [] :: splitAt p cs
    else
      match splitAt p cs with
      | [] => [[c]]
      | w :: ws => (c :: w) :: ws

/-- Cuts at every occurrence of the character `c`. -/
def splitOnChar (c : Char) (s : String) : List String :=
  (splitAt (· == c) s.toList).map String.ofList

/-- The maximal runs of characters that are not blank. -/
def words (cs : List Char) : List (List Char) := (splitAt isBlank cs).filter (!·.isEmpty)

/-- A carriage return and the line feed after it become one line feed, as does a carriage return
alone. -/
def normalizeNewlines : List Char → List Char
  | [] => []
  | '\r' :: '\n' :: cs => '\n' :: normalizeNewlines cs
  | '\r' :: cs => '\n' :: normalizeNewlines cs
  | c :: cs => c :: normalizeNewlines cs

/-- The lines of a text without their breaks; a break at the very end starts no further line. -/
def linesOf : List Char → List (List Char)
  | [] => []
  | '\r' :: '\n' :: cs => [] :: linesOf cs
  | c :: cs =>
    if isLineBreak c then [] :: linesOf cs
    else
      match linesOf cs with
      | [] => [[c]]
      | l :: ls => (c :: l) :: ls

def lines (s : String) : List String := (linesOf s.toList).map String.ofList

end Stencil.Text
