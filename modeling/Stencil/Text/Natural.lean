import Stencil.Text.Word

/-! The natural order of texts, in which runs of digits count as numbers. -/
namespace Stencil.Text

/-- A natural key: a text, then numbers each followed by a text. -/
structure NaturalKey where
  lead : String
  rest : List (Nat × String)
deriving DecidableEq, Repr

namespace NaturalKey

def compareRest : List (Nat × String) → List (Nat × String) → Ordering
  | [], [] => .eq
  | [], _ :: _ => .lt
  | _ :: _, [] => .gt
  | (m, s) :: as, (n, t) :: bs =>
    (compare m n).then ((compare s t).then (compareRest as bs))

def compare (a b : NaturalKey) : Ordering :=
  (Ord.compare a.lead b.lead).then (compareRest a.rest b.rest)

/-- Splits off the digits that lead, when there are some, with the text up to the next digits. -/
def chunks : Nat → List Char → List (Nat × String)
  | 0, _ => []
  | fuel + 1, cs =>
    let digits := cs.takeWhile isDecimal
    if digits.isEmpty then []
    else
      let after := cs.dropWhile isDecimal
      let text := after.takeWhile (!isDecimal ·)
      (digitsValue digits, String.ofList text) :: chunks fuel (after.dropWhile (!isDecimal ·))

/-- The most digits of a number that is read. -/
def maxDigits : Nat := 4300

/-- Holds of texts with more digits in a row than are read as a number. Such texts have no key. -/
def hasLongNumber : List Char → Bool
  | [] => false
  | c :: cs => maxDigits < ((c :: cs).takeWhile isDecimal).length || hasLongNumber cs

/-- Each chunk takes a digit, so the length bounds their number. -/
def ofString (s : String) : NaturalKey :=
  let cs := s.toList
  { lead := String.ofList (cs.takeWhile (!isDecimal ·))
    rest := chunks cs.length (cs.dropWhile (!isDecimal ·)) }

end NaturalKey

def naturalLe (a b : String) : Bool :=
  (NaturalKey.compare (.ofString a) (.ofString b)).isLE

/-- Sorts in natural order; texts with equal keys keep their places. All of them need a key. -/
def naturalSort (items : List String) : Option (List String) :=
  if items.any fun s => NaturalKey.hasLongNumber s.toList then none
  else some (items.mergeSort naturalLe)

end Stencil.Text
