import Stencil.Text.CaseTable
import Stencil.Text.Ranges

/-! Upper, lower and title case of texts in any script. -/
namespace Stencil.Text

/-- The case of a code point given by runs. -/
def mapRun (runs : List (Nat × Nat × Nat × Nat)) (n : Nat) : Option Nat :=
  (runs.find? fun (first, last, step, _) => first ≤ n && n ≤ last && (n - first) % step == 0).map
    fun (first, _, _, image) => image + (n - first)

/-- The lower case of one code point as one code point. -/
def simpleLower (n : Nat) : Nat :=
  if n < 128 then (if 65 ≤ n && n ≤ 90 then n + 32 else n)
  else if n == 0x130 then 0x69
  else (mapRun lowerRuns n).getD n

def simpleUpper (n : Nat) : Nat :=
  if n < 128 then (if 97 ≤ n && n ≤ 122 then n - 32 else n)
  else (mapRun upperRuns n).getD n

def lowerPoint (n : Nat) : List Nat :=
  match lowerLong.lookup n with
  | some ns => ns
  | none => [simpleLower n]

def upperPoint (n : Nat) : List Nat :=
  match upperLong.lookup n with
  | some ns => ns
  | none => [simpleUpper n]

def titlePoint (n : Nat) : List Nat :=
  match titleForms.lookup n with
  | some ns => ns
  | none => upperPoint n

def isLowerPoint (n : Nat) : Bool :=
  if n < 128 then 97 ≤ n && n ≤ 122 else inRanges lowerLetterRanges n

def isUpperPoint (n : Nat) : Bool :=
  if n < 128 then 65 ≤ n && n ≤ 90 else inRanges upperLetterRanges n

def isTitlePoint (n : Nat) : Bool := titleLetters.contains n

/-- Holds of the characters that have a case. -/
def isCased (n : Nat) : Bool := isLowerPoint n || isUpperPoint n || isTitlePoint n

/-- Holds if the next character that counts has a case. -/
def facesCased (ns : List Nat) : Bool :=
  match ns.dropWhile (inRanges caseIgnorableRanges) with
  | [] => false
  | n :: _ => isCased n

/-- The lower case of a character between two others; a sigma at the end of a word has its own. -/
def lowerAt (before : List Nat) (n : Nat) (rest : List Nat) : List Nat :=
  if n == 0x3a3 then
    if facesCased before && !facesCased rest then [0x3c2] else [0x3c3]
  else lowerPoint n

/-- Lower case; the characters before come backwards. -/
def lowerFrom (before : List Nat) : List Nat → List Nat
  | [] => []
  | n :: ns => lowerAt before n ns ++ lowerFrom (n :: before) ns

/-- Title case behind the characters before, which come backwards. -/
def titleFrom (before : List Nat) (inWord : Bool) : List Nat → List Nat
  | [] => []
  | n :: ns =>
    (if inWord then lowerAt before n ns else titlePoint n) ++ titleFrom (n :: before) (isCased n) ns

def points (s : String) : List Nat := s.toList.map Char.toNat

def ofPoints (ns : List Nat) : String := String.ofList (ns.map Char.ofNat)

def lower (s : String) : String := ofPoints (lowerFrom [] (points s))

def upper (s : String) : String := ofPoints ((points s).flatMap upperPoint)

/-- Every word starts with a capital. -/
def title (s : String) : String := ofPoints (titleFrom [] false (points s))

/-- The first character is a capital and the others are not. -/
def capitalize (s : String) : String :=
  match points s with
  | [] => ""
  | n :: ns => ofPoints (titlePoint n ++ lowerFrom [n] ns)

/-- Holds if there are lower case characters and none of another case. -/
def isLower (s : String) : Bool :=
  let ns := points s
  ns.any isLowerPoint && !ns.any fun n => isUpperPoint n || isTitlePoint n

def isUpper (s : String) : Bool :=
  let ns := points s
  ns.any isUpperPoint && !ns.any fun n => isLowerPoint n || isTitlePoint n

end Stencil.Text
