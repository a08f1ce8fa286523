import Stencil.Data.Value
import Stencil.Decimal.Shortest
import Stencil.Text.Escape

/-!
JSON documents. Reading is strict: no text behind the value, no lone surrogates, no control
characters in strings, no numbers that are not finite. Of entries with one key the last counts.
-/
namespace Stencil.Data.Json

/-- What becomes of integers that do not fit into 64 bits. -/
inductive Wide
  | keep
  | toFloat
deriving DecidableEq

def isSpace (c : Char) : Bool := c == ' ' || c == '\t' || c == '\n' || c == '\r'

def skipSpace (cs : List Char) : List Char := cs.dropWhile isSpace

/-- Four hexadecimal digits. -/
def unit? (cs : List Char) : Option (Nat × List Char) :=
  let ds := cs.take 4
  if ds.length == 4 then (Text.Escape.hexNumber? ds).map fun n => (n, cs.drop 4) else none

/-- The character of a `\u` escape; a high surrogate needs its low one behind it. -/
def unicode? (cs : List Char) : Option (Char × List Char) := do
  let (n, rest) ← unit? cs
  if 0xd800 ≤ n && n < 0xdc00 then
    match rest with
    | '\\' :: 'u' :: rest =>
      let (m, rest) ← unit? rest
      if 0xdc00 ≤ m && m < 0xe000 then
        return (Char.ofNat (0x10000 + (n - 0xd800) * 0x400 + (m - 0xdc00)), rest)
      else none
    | _ => none
  else if 0xdc00 ≤ n && n < 0xe000 then none
  else return (Char.ofNat n, rest)

def escape? : List Char → Option (Char × List Char)
  | 'u' :: cs => unicode? cs
  | '"' :: cs => some ('"', cs)
  | '\\' :: cs => some ('\\', cs)
  | '/' :: cs => some ('/', cs)
  | 'b' :: cs => some ('\x08', cs)
  | 'f' :: cs => some ('\x0c', cs)
  | 'n' :: cs => some ('\n', cs)
  | 'r' :: cs => some ('\r', cs)
  | 't' :: cs => some ('\t', cs)
  | _ => none

/-- The inside of a string and what follows its closing quote. -/
def stringTail : Nat → List Char → Option (List Char × List Char)
  | 0, _ => none
  | _, [] => none
  | _, '"' :: cs => some ([], cs)
  | fuel + 1, '\\' :: cs => do
    let (c, rest) ← escape? cs
    let (text, rest) ← stringTail fuel rest
    return (c :: text, rest)
  | fuel + 1, c :: cs =>
    if c.toNat < 32 then none
    else do
      let (text, rest) ← stringTail fuel cs
      return (c :: text, rest)

def string? (cs : List Char) : Option (String × List Char) :=
  (stringTail cs.length cs).map fun r => (String.ofList r.1, r.2)

/-- Digits, of which there is at least one. -/
def digits? (cs : List Char) : Option (List Char × List Char) :=
  let ds := cs.takeWhile Char.isDigit
  if ds.isEmpty then none else some (ds, cs.dropWhile Char.isDigit)

def decimal (ds : List Char) : Nat := ds.foldl (fun n c => 10 * n + (c.toNat - 48)) 0

def fraction? : List Char → Option (Option (List Char × List Char))
  | '.' :: cs => some (digits? cs)
  | _ => none

/-- A signed exponent behind its letter. -/
def exponent? : List Char → Option (Option (Int × List Char))
  | c :: cs =>
    if c == 'e' || c == 'E' then
      match cs with
      | '-' :: cs => some ((digits? cs).map fun r => (-(decimal r.1 : Int), r.2))
      | '+' :: cs => some ((digits? cs).map fun r => ((decimal r.1 : Int), r.2))
      | cs => some ((digits? cs).map fun r => ((decimal r.1 : Int), r.2))
    else none
  | [] => none

def intFits (n : Int) : Bool := -(Decimal.powerOfTwo 63 : Int) ≤ n && n < Decimal.powerOfTwo 64

/-- A finite float. -/
def float? (negative : Bool) (digits : Nat) (exponent : Int) : Option Value :=
  let x := (Decimal.Scaled.mk digits exponent).toFloat
  if x.isInf then none else some (.float (if negative then -x else x))

/-- A number without a sign in front of it. -/
def number? (wide : Wide) (negative : Bool) (cs : List Char) : Option (Value × List Char) := do
  let (whole, rest) ← digits? cs
  if whole.length > 1 && whole.head? == some '0' then none
  let (fraction, rest) ← (fraction? rest).getD (some ([], rest))
  let (exponent, after) ← (exponent? rest).getD (some (0, rest))
  let isInt := fraction.isEmpty && after.length == rest.length
  let digits := decimal (whole ++ fraction)
  let n : Int := if negative then -(digits : Int) else digits
  if isInt && (wide = .keep || intFits n) then return (.int n, after)
  else return (← float? negative digits (exponent - fraction.length), after)

/-- How deep lists and tables may lie in each other. -/
def maxDepth : Nat := 1024

def literal? (word : List Char) (value : Value) (cs : List Char) : Option (Value × List Char) :=
  if word.isPrefixOf cs then some (value, cs.drop word.length) else none

mutual

/-- A value; `depth` more levels may open. Each step takes a character, so `fuel` beyond the length
is enough. -/
def value? (wide : Wide) : Nat → Nat → List Char → Option (Value × List Char)
  | 0, _, _ => none
  | fuel + 1, depth, cs =>
    match skipSpace cs with
    | '"' :: cs => (string? cs).map fun r => (.str r.1, r.2)
    | '[' :: cs =>
      if depth = 0 then none
      else
        match skipSpace cs with
        | ']' :: cs => some (.list [], cs)
        | cs => (items? wide fuel (depth - 1) cs).map fun r => (.list r.1, r.2)
    | '{' :: cs =>
      if depth = 0 then none
      else
        match skipSpace cs with
        | '}' :: cs => some (.table [], cs)
        | cs => (entries? wide fuel (depth - 1) [] cs).map fun r => (.table r.1, r.2)
    | '-' :: cs => number? wide true cs
    | 't' :: cs => literal? ['r', 'u', 'e'] (.bool true) cs
    | 'f' :: cs => literal? ['a', 'l', 's', 'e'] (.bool false) cs
    | 'n' :: cs => literal? ['u', 'l', 'l'] .null cs
    | cs => number? wide false cs

/-- The items of a list that is not empty, and what follows its bracket. -/
def items? (wide : Wide) : Nat → Nat → List Char → Option (List Value × List Char)
  | 0, _, _ => none
  | fuel + 1, depth, cs => do
    let (v, rest) ← value? wide fuel depth cs
    match skipSpace rest with
    | ',' :: rest =>
      let (vs, rest) ← items? wide fuel depth rest
      return (v :: vs, rest)
    | ']' :: rest => return ([v], rest)
    | _ => none

/-- The entries of a table behind those read before. -/
def entries? (wide : Wide) :
    Nat → Nat → List (String × Value) → List Char → Option (List (String × Value) × List Char)
  | 0, _, _, _ => none
  | fuel + 1, depth, before, cs =>
    match skipSpace cs with
    | '"' :: cs => do
      let (key, rest) ← string? cs
      match skipSpace rest with
      | ':' :: rest =>
        let (v, rest) ← value? wide fuel depth rest
        let entries := Value.put key v before
        match skipSpace rest with
        | ',' :: rest => entries? wide fuel depth entries rest
        | '}' :: rest => return (entries, rest)
        | _ => none
      | _ => none
    | _ => none

end

/-- Reads a document that holds one value. -/
def parse? (wide : Wide) (s : String) : Option Value :=
  let cs := s.toList
  match value? wide (cs.length + 1) maxDepth cs with
  | some (v, rest) => if (skipSpace rest).isEmpty then some v else none
  | none => none

/-- Reads a document given by its bytes, which have to be UTF-8. -/
def decode? (bytes : ByteArray) : Option Value := do
  parse? .toFloat (← String.fromUTF8? bytes)

end Stencil.Data.Json
