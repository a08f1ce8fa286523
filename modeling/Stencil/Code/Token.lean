import Stencil.Text.Blank
import Stencil.Text.Escape
import Stencil.Text.Identifier

/-! The tokens of generated code, each with its place and the layout in front of it. -/
namespace Stencil.Code

inductive Shape
  | name
  | number
  | quoted
  | symbol
  | stop
deriving DecidableEq, Repr

/-- A comment on a line of its own. -/
structure Comment where
  row : Nat
  indent : Nat
deriving DecidableEq, Repr

structure Token where
  shape : Shape
  text : String
  /-- The characters from `start` up to `stop`, counted from zero. -/
  start : Nat
  stop : Nat
  row : Nat
  endRow : Nat
  /-- How far the line is indented, for the first token of a line. -/
  indent : Option Nat
  /-- The comments between the token before and this one. -/
  comments : List Comment
deriving Repr

namespace Token

/-- A place in the text: what is left, its offset and its row. -/
structure Cursor where
  rest : List Char
  offset : Nat
  row : Nat

namespace Cursor

variable (c : Cursor)

def newlines (cs : List Char) : Nat := cs.count '\n'

/-- Behind the next `n` characters. -/
def advance (n : Nat) : Cursor :=
  ⟨c.rest.drop n, c.offset + (c.rest.take n).length, c.row + newlines (c.rest.take n)⟩

end Cursor

/-- What lies between two tokens. -/
structure Gap where
  indent : Option Nat
  comments : List Comment

/-- Blanks that do not belong to the indentation. -/
def isFiller (c : Char) : Bool :=
  Text.isBlank c || c == '\ufeff' || c == '\u2060' || c == '\u200b'

/-- Goes to the next token. A backslash joins its line with the next one. -/
def skipGap : Nat → Gap → Cursor → Option (Gap × Cursor)
  | 0, _, _ => none
  | n + 1, g, c =>
    match c.rest with
    | '\n' :: _ => skipGap n { g with indent := some 0 } (c.advance 1)
    | ' ' :: _ => skipGap n { g with indent := g.indent.map (· + 1) } (c.advance 1)
    | '\t' :: _ => skipGap n { g with indent := g.indent.map (· + 8) } (c.advance 1)
    | '\r' :: _ | '\x0c' :: _ =>
      skipGap n { g with indent := g.indent.map fun _ => 0 } (c.advance 1)
    | '#' :: rest =>
      let comments := match g.indent with
        | some i => g.comments ++ [⟨c.row, i⟩]
        | none => g.comments
      skipGap n { g with comments } (c.advance ((rest.takeWhile (· ≠ '\n')).length + 1))
    | '\\' :: '\n' :: _ => skipGap n g (c.advance 2)
    | '\\' :: '\r' :: '\n' :: _ => skipGap n g (c.advance 3)
    | '\\' :: _ => none
    | d :: _ => if isFiller d then skipGap n g (c.advance 1) else some (g, c)
    | [] => some ({ g with indent := some 0 }, c)

/-- The length of digits with single underscores behind some of them. -/
def digitRun (p : Char → Bool) : List Char → Nat
  | d :: '_' :: cs => if p d then digitRun p cs + 2 else 0
  | d :: cs => if p d then digitRun p cs + 1 else 0
  | [] => 0

/-- The length of groups of digits with a single underscore in front of each. -/
def basedRun (p : Char → Bool) : List Char → Nat
  | '_' :: d :: cs => if p d then basedRun p cs + 2 else 0
  | d :: cs => if p d then basedRun p cs + 1 else 0
  | [] => 0

def suffixLength (allowed : List Char) (cs : List Char) : Nat :=
  match cs with
  | c :: _ => if allowed.contains c then 1 else 0
  | [] => 0

def exponentLength (cs : List Char) : Nat :=
  match cs with
  | e :: s :: rest =>
    if e == 'e' || e == 'E' then
      let signed := s == '+' || s == '-'
      let n := digitRun Char.isDigit (if signed then rest else s :: rest)
      if n = 0 then 0 else n + (if signed then 2 else 1)
    else 0
  | _ => 0

/-- The length of a fraction and an exponent behind it. -/
def fractionLength (cs : List Char) : Nat :=
  let n := digitRun Char.isDigit cs
  n + exponentLength (cs.drop n)

def isHex (c : Char) : Bool := (Text.Escape.hexValue? c).isSome

def isBinary (c : Char) : Bool := c == '0' || c == '1'

/-- The length of a number in another base. -/
def basedLength : List Char → Nat
  | '0' :: b :: cs =>
    let p : Option (Char → Bool) := match b with
      | 'x' | 'X' => some isHex
      | 'o' | 'O' => some Text.Escape.isOctal
      | 'b' | 'B' => some isBinary
      | _ => none
    match p with
    | none => 0
    | some p =>
      let n := basedRun p cs
      if n = 0 then 0 else n + 2 + suffixLength ['l', 'L'] (cs.drop n)
  | _ => 0

/-- The length of the number that a text begins with. -/
def numberLength (cs : List Char) : Nat :=
  let based := basedLength cs
  if based > 0 then based
  else
    let whole := digitRun Char.isDigit cs
    let behind := cs.drop whole
    match behind with
    | '.' :: fraction =>
      let n := fractionLength fraction
      let n := whole + 1 + n
      n + suffixLength ['j', 'J'] (cs.drop n)
    | _ =>
      let e := exponentLength behind
      if e = 0 then whole + suffixLength ['l', 'L', 'j', 'J'] behind
      else whole + e + suffixLength ['j', 'J'] (behind.drop e)

/-- The length of the inside of a literal and its closing quotes; without `long` it ends on its
line. -/
def quotedTail (long : Bool) (quote : Char) : List Char → Option Nat
  | [] => none
  | '\\' :: _ :: cs => (quotedTail long quote cs).map (· + 2)
  | c :: cs =>
    if c == quote then
      if !long then some 1
      else if [quote, quote].isPrefixOf cs then some 3
      else (quotedTail long quote cs).map (· + 1)
    else if c == '\n' && !long then none
    else (quotedTail long quote cs).map (· + 1)

def isQuote (c : Char) : Bool := c == '"' || c == '\''

def isPrefixLetter (c : Char) : Bool :=
  ['f', 'F', 'r', 'R', 'b', 'B', 'u', 'U'].contains c

/-- The length of the literal that a text begins with, if it begins with one. A literal that is not
closed has none. -/
def quotedLength? (cs : List Char) : Option (Option Nat) :=
  let letters := (cs.takeWhile isPrefixLetter).length
  match cs.drop letters with
  | q :: rest =>
    if isQuote q then
      if [q, q].isPrefixOf rest then
        some ((quotedTail true q (rest.drop 2)).map (· + letters + 3))
      else some ((quotedTail false q rest).map (· + letters + 1))
    else none
  | [] => none

/-- Symbols, longer ones before those they begin with. -/
def symbols : List String := [
  "...", "**=", "//=", ">>=", "<<=", "->", ":=", "==", "!=", "<=", ">=", "<>", "**", "//", "<<",
  ">>", "+=", "-=", "*=", "/=", "%=", "&=", "|=", "^=", "@=", "+", "-", "*", "/", "%", "@", "&",
  "|",
  "^", "~", "<", ">", "(", ")", "[", "]", "\x7b", "\x7d", ",", ":", ";", ".", "="]

def symbolLength (cs : List Char) : Option Nat :=
  (symbols.find? fun s => s.toList.isPrefixOf cs).map String.length

/-- The kind and length of the token that a text begins with. -/
def scan (cs : List Char) : Option (Shape × Nat) :=
  match quotedLength? cs with
  | some n => n.map fun n => (.quoted, n)
  | none =>
    match cs with
    | [] => some (.stop, 0)
    | c :: rest =>
      if Text.isIdentifierStart c then
        some (.name, (rest.takeWhile Text.isIdentifierContinue).length + 1)
      else if c.isDigit || (c == '.' && rest.head?.any Char.isDigit) then
        some (.number, numberLength cs)
      else (symbolLength cs).map fun n => (.symbol, n)

/-- The tokens from a place on; the last stands for the end. -/
def allFrom : Nat → Option Nat → Cursor → Option (List Token)
  | 0, _, _ => none
  | n + 1, indent, c => do
    let (g, c) ← skipGap (c.rest.length + 1) ⟨indent, []⟩ c
    let (shape, length) ← scan c.rest
    let d := c.advance length
    let text := String.ofList (c.rest.take length)
    let t : Token := ⟨shape, text, c.offset, d.offset, c.row, d.row, g.indent, g.comments⟩
    if shape = .stop then return [t]
    else return t :: (← allFrom n none d)

/-- The tokens of a text. Not every text has any. -/
def all? (cs : List Char) : Option (List Token) := allFrom (cs.length + 1) (some 0) ⟨cs, 0, 0⟩

def is (t : Token) (s : String) : Bool :=
  (t.shape = .symbol || t.shape = .name) && t.text == s

end Token

end Stencil.Code
