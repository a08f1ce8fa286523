import Stencil.Builtin.Datum

/-!
Texts with places for values. A place is a percent sign, the name of a value in parentheses or none,
then flags, a width, a precision and the letter that says how the value is written.
-/
namespace Stencil.Builtin.Format

/-- How a value is written. -/
structure Directive where
  left : Bool
  plus : Bool
  blank : Bool
  alternate : Bool
  zero : Bool
  width : Option Nat
  precision : Option Nat
  letter : Char

/-- The values that are left, and those that have names. -/
structure Supply where
  pending : List Datum
  named : Option Datum

namespace Supply

/-- A tuple gives its items, any other value itself. Lists and dictionaries have items with
names. -/
def ofDatum : Datum → Supply
  | .tuple items => ⟨items, none⟩
  | .dict entries => ⟨[.dict entries], some (.dict entries)⟩
  | .list items => ⟨[.list items], some (.list items)⟩
  | d => ⟨[d], none⟩

def next (s : Supply) : Outcome (Datum × Supply) :=
  match s.pending with
  | d :: ds => .ok (d, { s with pending := ds })
  | [] => .error .wrongType

/-- The named value in place of those that are left. -/
def select (s : Supply) (name : String) : Outcome Supply :=
  match s.named with
  | some d => do return { s with pending := [← d.item (.text name)] }
  | none => .error .wrongType

end Supply

/-- The name up to the parenthesis that closes it, and what is behind. -/
def nameEnd : Nat → List Char → Option (List Char × List Char)
  | _, [] => none
  | 0, ')' :: cs => some ([], cs)
  | depth, c :: cs =>
    let depth := if c = '(' then depth + 1 else if c = ')' then depth - 1 else depth
    (nameEnd depth cs).map fun (name, rest) => (c :: name, rest)

def isFlag (c : Char) : Bool := "-+ #0".toList.contains c

def digitsValue (cs : List Char) : Nat :=
  cs.foldl (fun n c => 10 * n + (c.toNat - '0'.toNat)) 0

def maxWidth : Nat := Decimal.powerOfTwo 63 - 1

def maxPrecision : Nat := Decimal.powerOfTwo 31 - 1

/-- A count: digits, or a star for the next value. It may be missing. -/
def count (bound : Nat) (s : Supply) : List Char → Outcome (Option Int × Supply × List Char)
  | '*' :: cs => do
    let (d, s) ← s.next
    let n ← d.index
    if n < -(bound : Int) - 1 || n > bound then throw .tooLarge
    return (some n, s, cs)
  | cs =>
    let digits := cs.takeWhile Char.isDigit
    let n := digitsValue digits
    if digits.isEmpty then .ok (none, s, cs)
    else if n > bound then .error .badValue
    else .ok (some (n : Int), s, cs.dropWhile Char.isDigit)

/-- Takes the named value if there is a name in parentheses. -/
def target (s : Supply) : List Char → Outcome (Supply × List Char)
  | '(' :: cs =>
    if s.named.isNone then .error .wrongType
    else
      match nameEnd 0 cs with
      | none => .error .badValue
      | some (name, rest) => (s.select (String.ofList name)).map fun s => (s, rest)
  | cs => .ok (s, cs)

/-- The precision, which is behind a point; none less than zero counts as zero. -/
def precision (s : Supply) : List Char → Outcome (Option Nat × Supply × List Char)
  | '.' :: cs => (count maxPrecision s cs).map fun (n, s, cs) => (some (n.getD 0).toNat, s, cs)
  | cs => .ok (none, s, cs)

/-- Drops a letter that tells sizes of numbers apart. -/
def withoutSize : List Char → List Char
  | 'h' :: cs | 'l' :: cs | 'L' :: cs => cs
  | cs => cs

/-- Reads what is behind a percent sign. -/
def directive (s : Supply) (cs : List Char) : Outcome (Directive × Supply × List Char) := do
  let (s, cs) ← target s cs
  let flags := cs.takeWhile isFlag
  let (width, s, cs) ← count maxWidth s (cs.dropWhile isFlag)
  let (precision, s, cs) ← precision s cs
  match withoutSize cs with
  | [] => throw .badValue
  | letter :: rest =>
    return (⟨flags.contains '-' || width.any (· < 0), flags.contains '+', flags.contains ' ',
      flags.contains '#', flags.contains '0', width.map Int.natAbs, precision, letter⟩, s, rest)

namespace Directive

variable (d : Directive)

/-- Fills a text up to the width: behind its sign and mark with zeros, or with blanks around it. -/
def fill (zeros : Bool) (sign mark body : List Char) : List Char :=
  let missing := d.width.getD 0 - (sign.length + mark.length + body.length)
  if d.left then sign ++ mark ++ body ++ List.replicate missing ' '
  else if zeros then sign ++ mark ++ List.replicate missing '0' ++ body
  else List.replicate missing ' ' ++ sign ++ mark ++ body

def signOf (negative : Bool) : List Char :=
  if negative then ['-'] else if d.plus then ['+'] else if d.blank then [' '] else []

def textOf (s : List Char) : List Char :=
  d.fill false [] [] ((d.precision.map (s.take ·)).getD s)

def integer (n : Int) : List Char :=
  let (base, mark) := match d.letter with
    | 'o' => (8, ['0', 'o'])
    | 'x' => (16, ['0', 'x'])
    | 'X' => (16, ['0', 'X'])
    | _ => (10, [])
  let digits := Nat.toDigits base n.natAbs
  let digits := if d.letter = 'X' then digits.map Char.toUpper else digits
  let digits := List.replicate (d.precision.getD 0 - digits.length) '0' ++ digits
  d.fill d.zero (d.signOf (n < 0)) (if d.alternate then mark else []) digits

/-- Puts a point behind the digits if there is none. -/
def withPoint (cs : List Char) : List Char :=
  if cs.contains '.' then cs
  else cs.takeWhile Char.isDigit ++ '.' :: cs.dropWhile Char.isDigit

def finite (mantissa : Nat) (exponent : Int) : List Char :=
  let places := d.precision.getD 6
  let pointed := fun cs => if d.alternate then withPoint cs else cs
  match d.letter.toLower with
  | 'e' => pointed (Decimal.scientificText mantissa exponent places)
  | 'f' => pointed (Decimal.fixedText mantissa exponent places)
  | _ => Decimal.generalText mantissa exponent places d.alternate

def float (x : Float) : List Char :=
  let (negative, body) := match Decimal.Exact.ofFloat x with
    | .nan => (false, "nan".toList)
    | .infinite negative => (negative, "inf".toList)
    | .finite negative mantissa exponent => (negative, d.finite mantissa exponent)
  let body := if d.letter.isUpper then body.map Char.toUpper else body
  d.fill d.zero (d.signOf negative) [] body

end Directive

/-- Escapes every character that is not ASCII. -/
def asciiOnly (s : String) : List Char :=
  s.toList.flatMap fun c =>
    let n := c.toNat
    if n < 0x80 then [c]
    else if n < 0x100 then '\\' :: 'x' :: Text.hexDigits 2 n
    else if n < 0x10000 then '\\' :: 'u' :: Text.hexDigits 4 n
    else '\\' :: 'U' :: Text.hexDigits 8 n

/-- The integer that a float starts with. -/
def wholePart (x : Float) : Outcome Int :=
  match Decimal.Exact.ofFloat x with
  | .nan => .error .badValue
  | .infinite _ => .error .tooLarge
  | .finite negative mantissa exponent =>
    let n : Int := Decimal.wholePart mantissa exponent
    .ok (if negative then -n else n)

/-- The character that a value stands for: a text of one, or the number of one. -/
def character (d : Datum) : Outcome Char :=
  match d with
  | .text s =>
    match s.toList with
    | [c] => .ok c
    | _ => .error .wrongType
  | d => do
    let n ← d.index
    if n < 0 || n > 0x10ffff then throw .tooLarge
    return Char.ofNat n.toNat

/-- Writes a value. -/
def write (d : Directive) (v : Datum) : Outcome (List Char) :=
  match d.letter with
  | 's' => .ok (d.textOf v.plain.toList)
  | 'r' => .ok (d.textOf v.shown.toList)
  | 'a' => .ok (d.textOf (asciiOnly v.shown))
  | 'c' => do return d.fill false [] [] [← character v]
  | 'd' | 'i' | 'u' =>
    match v.number? with
    | some (.int n) => .ok (d.integer n)
    | some (.float x) => do return d.integer (← wholePart x)
    | none => .error .wrongType
  | 'o' | 'x' | 'X' => do return d.integer (← v.index)
  | 'e' | 'E' | 'f' | 'F' | 'g' | 'G' =>
    match v.number? with
    | some n => do return d.float (← n.toFloat)
    | none => .error .wrongType
  | _ => .error .badValue

/-- Writes the values into the text. Each step takes a character at least. -/
def fillIn : Nat → Supply → List Char → Outcome (List Char)
  | 0, _, _ => .ok []
  | _, s, [] => if s.named.isNone && !s.pending.isEmpty then .error .wrongType else .ok []
  | bound + 1, s, '%' :: '%' :: cs => do return '%' :: (← fillIn bound s cs)
  | bound + 1, s, '%' :: cs => do
    let (d, s, rest) ← directive s cs
    if d.letter = '%' then return '%' :: (← fillIn bound s rest)
    let (v, s) ← s.next
    return (← write d v) ++ (← fillIn bound s rest)
  | bound + 1, s, c :: cs => do return c :: (← fillIn bound s cs)

/-- A text with a value written into it; the items of a tuple go to a place each. -/
def apply (text : String) (value : Datum) : Outcome String := do
  let cs := text.toList
  return String.ofList (← fillIn (cs.length + 1) (.ofDatum value) cs)

end Stencil.Builtin.Format
