import Stencil.Text.Quoted

/-!
Backslash escapes inside string literals. Characters outside ASCII are first written as escapes and
then read back with the others, so a backslash before such a character quotes the backslash that
starts its escape.
-/
namespace Stencil.Text.Escape

inductive Error
  | truncatedByte
  | truncatedShort
  | truncatedLong
  | illegalCharacter
  | malformedName
  | unknownName
  | loneBackslash

def Error.message : Error → String
  | truncatedByte => "truncated \\xXX escape"
  | truncatedShort => "truncated \\uXXXX escape"
  | truncatedLong => "truncated \\UXXXXXXXX escape"
  | illegalCharacter => "illegal Unicode character"
  | malformedName => "malformed \\N character escape"
  | unknownName => "unknown Unicode character name"
  | loneBackslash => "\\ at end of string"

def hexValue? (c : Char) : Option Nat :=
  if c.isDigit then some (c.toNat - 48)
  else if 'a' ≤ c && c ≤ 'f' then some (c.toNat - 87)
  else if 'A' ≤ c && c ≤ 'F' then some (c.toNat - 55)
  else none

/-- The number written by all of `cs` in base sixteen. -/
def hexNumber? (cs : List Char) : Option Nat :=
  cs.foldlM (fun n c => (hexValue? c).map (16 * n + ·)) 0

def isOctal (c : Char) : Bool := '0' ≤ c && c ≤ '7'

def octalNumber (cs : List Char) : Nat := cs.foldl (fun n c => 8 * n + (c.toNat - 48)) 0

/-- The character meant by a letter after a backslash. -/
def simple? : Char → Option Char
  | '\\' => some '\\'
  | '\'' => some '\''
  | '"' => some '"'
  | 'b' => some '\x08'
  | 'f' => some '\x0c'
  | 't' => some '\t'
  | 'n' => some '\n'
  | 'r' => some '\r'
  | 'v' => some '\x0b'
  | 'a' => some '\x07'
  | _ => none

/-- The digits of a fixed-width escape and the rest. -/
def hexEscape (width : Nat) (short : Error) (cs : List Char) : Except Error (Nat × List Char) :=
  let digits := cs.take width
  if digits.length < width then .error short
  else
    match hexNumber? digits with
    | none => .error short
    | some n => if n > 0x10ffff then .error .illegalCharacter else .ok (n, cs.drop width)

/-- An escape of up to three octal digits and the rest. -/
def octalEscape (cs : List Char) : Nat × List Char :=
  let digits := (cs.take 3).takeWhile isOctal
  (octalNumber digits, cs.drop digits.length)

/-- A named character: its braces hold a name, of which none is known here. -/
def namedEscape : List Char → Except Error (Nat × List Char)
  | '{' :: cs =>
    let name := cs.takeWhile (· ≠ '}')
    if name.isEmpty || name.length == cs.length then .error .malformedName
    else .error .unknownName
  | _ => .error .malformedName

/-- What the characters after a backslash stand for, and the rest. -/
def afterBackslash : List Char → Except Error (Points × List Char)
  | [] => .error .loneBackslash
  | '\n' :: cs => .ok ([], cs)
  | 'x' :: cs => (hexEscape 2 .truncatedByte cs).map fun r => ([r.1], r.2)
  | 'u' :: cs => (hexEscape 4 .truncatedShort cs).map fun r => ([r.1], r.2)
  | 'U' :: cs => (hexEscape 8 .truncatedLong cs).map fun r => ([r.1], r.2)
  | 'N' :: cs => (namedEscape cs).map fun r => ([r.1], r.2)
  | c :: cs =>
    match simple? c with
    | some d => .ok ([d.toNat], cs)
    | none =>
      if isOctal c then
        let r := octalEscape (c :: cs)
        .ok ([r.1], r.2)
      else .ok (['\\'.toNat, c.toNat], cs)

/-- Reads at most `fuel` characters or escapes. -/
def decodeFuel : Nat → List Char → Except Error Points
  | 0, _ => .ok []
  | _, [] => .ok []
  | fuel + 1, '\\' :: cs =>
    match afterBackslash cs with
    | .error e => .error e
    | .ok (ps, rest) => (decodeFuel fuel rest).map (ps ++ ·)
  | fuel + 1, c :: cs => (decodeFuel fuel cs).map (c.toNat :: ·)

/-- Every escape takes at least one character, so the length bounds their number. -/
def decode (cs : List Char) : Except Error Points := decodeFuel cs.length cs

/-- A character outside ASCII written as an escape. -/
def asciiForm (c : Char) : List Char :=
  let n := c.toNat
  if n < 0x80 then [c]
  else if n < 0x100 then '\\' :: 'x' :: hexDigits 2 n
  else if n < 0x10000 then '\\' :: 'u' :: hexDigits 4 n
  else '\\' :: 'U' :: hexDigits 8 n

/-- The text meant by the inside of a template's string literal. -/
def decodeLiteral (cs : List Char) : Except Error Points := decode (cs.flatMap asciiForm)

end Stencil.Text.Escape
