import Stencil.Text.Printable

/-!
Texts as code points, which can hold surrogates that no character stands for, and quoted text on one
line. Single quotes are used unless the text holds a single quote and no double quote; backslashes,
the quote in use and characters that are not printable are escaped.
-/
namespace Stencil.Text

abbrev Points := List Nat

namespace Points

def ofString (s : String) : Points := s.toList.map Char.toNat

/-- The text of code points that are all characters. -/
def toString? (ps : Points) : Option String :=
  if ps.all Nat.isValidChar then some (String.ofList (ps.map Char.ofNat)) else none

end Points

/-- The last `width` hexadecimal digits of `n`, in lower case. -/
def hexDigits : Nat → Nat → List Char
  | 0, _ => []
  | width + 1, n => hexDigits width (n / 16) ++ [Nat.digitChar (n % 16)]

namespace Quoted

/-- The quote in which a text is written. -/
def delimiter (ps : Points) : Char :=
  if ps.contains '\''.toNat && !ps.contains '"'.toNat then '"' else '\''

def escape (delimiter : Char) (n : Nat) : List Char :=
  if n == '\\'.toNat || n == delimiter.toNat then ['\\', Char.ofNat n]
  else if n == '\n'.toNat then ['\\', 'n']
  else if n == '\r'.toNat then ['\\', 'r']
  else if n == '\t'.toNat then ['\\', 't']
  else if isPrintable n then [Char.ofNat n]
  else if n < 0x100 then '\\' :: 'x' :: hexDigits 2 n
  else if n < 0x10000 then '\\' :: 'u' :: hexDigits 4 n
  else '\\' :: 'U' :: hexDigits 8 n

def encode (ps : Points) : List Char :=
  let q := delimiter ps
  q :: ps.flatMap (escape q) ++ [q]

end Quoted

def quotePoints (ps : Points) : String := String.ofList (Quoted.encode ps)

def quote (s : String) : String := quotePoints (Points.ofString s)

end Stencil.Text
