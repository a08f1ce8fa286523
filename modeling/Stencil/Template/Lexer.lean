import Stencil.Decimal.Shortest
import Stencil.Template.Token
import Stencil.Text.Blank
import Stencil.Text.Identifier
import Stencil.Text.Word

/-!
The tokens of a template's text. Outside tags everything up to the next opening delimiter is data;
inside tags numbers are tried before names, names before strings, and operators last.
-/
namespace Stencil.Template.Lexer
open Text

/-- White space control on a delimiter. -/
inductive Control
  | keep
  | strip
  | none
deriving DecidableEq

def newlines (cs : List Char) : Nat := cs.count '\n'

/-- What remains after the text `p`. -/
def after? : List Char → List Char → Option (List Char)
  | [], cs => some cs
  | _ :: _, [] => .none
  | p :: ps, c :: cs => if p == c then after? ps cs else .none

def control : List Char → Control × List Char
  | '-' :: cs => (.strip, cs)
  | '+' :: cs => (.keep, cs)
  | cs => (.none, cs)

def skipBlanks (cs : List Char) : List Char := cs.dropWhile isBlank

/-- Behind a closing delimiter: its control sign may strip blanks, or keep them where `plus` allows
the sign. -/
def closing? (plus : Bool) (close : List Char) (cs : List Char) : Option (List Char) :=
  match after? ('-' :: close) cs with
  | some rest => some (skipBlanks rest)
  | .none =>
    match if plus then after? ('+' :: close) cs else .none with
    | some rest => some rest
    | .none => after? close cs

/-- What a `raw` tag opens with: its control and the text behind it. -/
def rawBegin? (cs : List Char) : Option (Control × List Char) := do
  let (sign, cs) := control (← after? ['{', '%'] cs)
  let cs := skipBlanks (← after? ['r', 'a', 'w'] (skipBlanks cs))
  let rest ← closing? false ['%', '}'] cs
  return (sign, rest)

def rawEnd? (cs : List Char) : Option (Control × List Char) := do
  let (sign, cs) := control (← after? ['{', '%'] cs)
  let cs := skipBlanks (← after? "endraw".toList (skipBlanks cs))
  let rest ← closing? true ['%', '}'] cs
  return (sign, rest)

inductive Opening
  | raw
  | output
  | comment
  | block

/-- The opening delimiter at the start of `cs`, its control and what follows. -/
def opening? (cs : List Char) : Option (Opening × Control × List Char) :=
  match cs with
  | '{' :: '%' :: rest =>
    match rawBegin? cs with
    | some (sign, rest) => some (.raw, sign, rest)
    | .none => some (.block, control rest)
  | '{' :: '{' :: rest => some (.output, control rest)
  | '{' :: '#' :: rest => some (.comment, control rest)
  | _ => .none

/-- The text before the first place where `f` succeeds, and its result there. -/
def upTo {α : Type} (f : List Char → Option α) : List Char → List Char × Option α
  | [] => ([], f [])
  | c :: cs =>
    match f (c :: cs) with
    | some a => ([], some a)
    | .none =>
      let (text, a) := upTo f cs
      (c :: text, a)

/-- The digits that lead, single underscores between them allowed. -/
def digitRun : List Char → List Char
  | [] => []
  | c :: cs =>
    if isDecimal c then c :: digitRun cs
    else
      match cs with
      | d :: _ => if c == '_' && isDecimal d then c :: digitRun cs else []
      | [] => []

/-- Digits that start with a digit. -/
def digits? (cs : List Char) : Option (List Char × List Char) :=
  match cs with
  | c :: _ =>
    if isDecimal c then
      let ds := digitRun cs
      some (ds, cs.drop ds.length)
    else .none
  | [] => .none

/-- An exponent part: its text and the rest. -/
def exponent? : List Char → Option (List Char × List Char)
  | e :: cs =>
    if e == 'e' || e == 'E' then
      match cs with
      | s :: rest =>
        if s == '+' || s == '-' then (digits? rest).map fun r => (e :: s :: r.1, r.2)
        else (digits? cs).map fun r => (e :: r.1, r.2)
      | [] => .none
    else .none
  | [] => .none

def fraction? : List Char → Option (List Char × List Char)
  | '.' :: cs => (digits? cs).map fun r => ('.' :: r.1, r.2)
  | _ => .none

/-- A float: digits with a fraction, an exponent or both. -/
def float? (cs : List Char) : Option (List Char × List Char) := do
  let (whole, rest) ← digits? cs
  match fraction? rest with
  | some (f, rest) =>
    match exponent? rest with
    | some (e, rest) => return (whole ++ f ++ e, rest)
    | .none => return (whole ++ f, rest)
  | .none =>
    let (e, rest) ← exponent? rest
    return (whole ++ e, rest)

/-- Characters of a class, each with at most one underscore before it. -/
def spacedRun (p : Char → Bool) : List Char → List Char
  | [] => []
  | c :: cs =>
    if p c then c :: spacedRun p cs
    else
      match cs with
      | d :: _ => if c == '_' && p d then c :: spacedRun p cs else []
      | [] => []

def isHex (c : Char) : Bool :=
  isDecimal c || ('a' ≤ c && c ≤ 'f') || ('A' ≤ c && c ≤ 'F')

/-- Digits after the two characters that name a base. -/
def based? (letter : Char) (p : Char → Bool) : List Char → Option (List Char × List Char)
  | '0' :: b :: cs =>
    if b.toLower == letter then
      let run := spacedRun p cs
      if run.isEmpty then .none else some (run, cs.drop run.length)
    else .none
  | _ => .none

def hexDigitValue (c : Char) : Nat :=
  match Escape.hexValue? c with
  | some v => v
  | .none => (digitValue? c).getD 0

def valueIn (base : Nat) (cs : List Char) : Nat :=
  cs.foldl (fun n c => if c == '_' then n else base * n + hexDigitValue c) 0

/-- The most decimal digits that are read as an integer. -/
def maxDigits : Nat := 4300

/-- An integer literal and the rest. -/
def integer? (cs : List Char) : Option (Except NumeralError Nat × List Char) :=
  match based? 'b' (fun c => c == '0' || c == '1') cs with
  | some (ds, rest) => some (.ok (valueIn 2 ds), rest)
  | .none =>
    match based? 'o' Escape.isOctal cs with
    | some (ds, rest) => some (.ok (valueIn 8 ds), rest)
    | .none =>
      match based? 'x' isHex cs with
      | some (ds, rest) => some (.ok (valueIn 16 ds), rest)
      | .none =>
        match cs with
        | '0' :: _ =>
          let ds := spacedRun (· == '0') cs
          some (.ok 0, cs.drop ds.length)
        | c :: _ =>
          if '1' ≤ c && c ≤ '9' then
            let ds := digitRun cs
            let value :=
              if (ds.filter (· ≠ '_')).length > maxDigits then .error .tooLong
              else .ok (valueIn 10 ds)
            some (value, cs.drop ds.length)
          else .none
        | [] => .none

/-- The number meant by the text of a float. -/
def floatValue (cs : List Char) : Except NumeralError Float :=
  let cs := cs.filter (· ≠ '_')
  if cs.any (·.toNat ≥ 128) then .error .foreignDigits
  else
    let isExp := fun c => c == 'e' || c == 'E'
    let mantissa := cs.takeWhile (!isExp ·)
    let tail := (cs.dropWhile (!isExp ·)).drop 1
    let whole := mantissa.takeWhile (· ≠ '.')
    let fraction := (mantissa.dropWhile (· ≠ '.')).drop 1
    let magnitude : Int := digitsValue (tail.filter Char.isDigit)
    let e : Int := if tail.head? == some '-' then -magnitude else magnitude
    .ok (Decimal.Scaled.toFloat ⟨digitsValue (whole ++ fraction), e - fraction.length⟩)

def isNameChar (c : Char) : Bool := isWord c || isIdentifierContinue c

/-- The inside of a string up to its closing quote, escapes left as they are, and the rest. -/
def stringBody (quote : Char) : List Char → Option (List Char × List Char)
  | [] => .none
  | '\\' :: c :: cs => (stringBody quote cs).map fun r => ('\\' :: c :: r.1, r.2)
  | c :: cs =>
    if c == quote then some ([], cs)
    else if c == '\\' then .none
    else (stringBody quote cs).map fun r => (c :: r.1, r.2)

def string? : List Char → Option (List Char × List Char)
  | c :: cs => if c == '\'' || c == '"' then stringBody c cs else .none
  | [] => .none

def operator? : List Char → Option (Operator × List Char)
  | c :: d :: cs =>
    match Operator.ofPair? c d with
    | some o => some (o, cs)
    | .none => (Operator.ofChar? c).map fun o => (o, d :: cs)
  | [c] => (Operator.ofChar? c).map fun o => (o, [])
  | [] => .none

/-- Where reading stands: outside tags or in one, on a line, behind a point, with open brackets. -/
structure State where
  tag : Option Opening
  line : Nat
  afterDot : Bool
  opened : List Operator

def fail (line : Nat) (fault : Fault) : TokenStream := .failed (.malformed ⟨fault, line⟩)

/-- The open brackets after an operator. -/
def balance (opened : List Operator) (o : Operator) : Except Fault (List Operator) :=
  match o.closing? with
  | some close => .ok (close :: opened)
  | .none =>
    if o.isClosing then
      match opened with
      | [] => .error (.unopened o)
      | expected :: outer => if expected == o then .ok outer else .error (.mismatched o expected)
    else .ok opened

/-- The closing delimiter of a tag, where no bracket is open. -/
def tagEnd? (tag : Opening) (opened : List Operator) (cs : List Char) :
    Option (Lexeme × List Char) :=
  if opened.isEmpty then
    match tag with
    | .output => (closing? false ['}', '}'] cs).map fun rest => (.variableEnd, rest)
    | _ => (closing? true ['%', '}'] cs).map fun rest => (.blockEnd, rest)
  else .none

/-- The line breaks between a place and a later one. -/
def linesTo (cs rest : List Char) : Nat := newlines (cs.take (cs.length - rest.length))

def pushData (line : Nat) (text : List Char) (tail : TokenStream) : TokenStream :=
  if text.isEmpty then tail else .token ⟨line, .data (String.ofList text)⟩ tail

def stripped (sign : Control) (text : List Char) : List Char :=
  if sign = .strip then dropEndWhile isBlank text else text

section Steps

variable (total : Nat) (go : State → List Char → TokenStream) (st : State) (cs : List Char)

/-- Raw text up to its end tag. -/
def rawText : TokenStream :=
  match upTo rawEnd? cs with
  | (text, some (sign, rest)) =>
    pushData st.line (stripped sign text) (go { st with line := st.line + linesTo cs rest } rest)
  | (_, .none) => if cs.isEmpty then .done else fail st.line .unclosedRaw

/-- A comment, of which nothing stays. -/
def commentText : TokenStream :=
  match upTo (closing? true ['#', '}']) cs with
  | (_, some rest) => go { st with line := st.line + linesTo cs rest } rest
  | (_, .none) => if cs.isEmpty then .done else fail st.line .unclosedComment

/-- Text up to the next tag. -/
def betweenTags : TokenStream :=
  match upTo opening? cs with
  | (text, .none) => pushData st.line text .done
  | (text, some (opening, sign, rest)) =>
    let line := st.line + newlines text
    let next := { st with line := line + linesTo (cs.drop text.length) rest }
    pushData st.line (stripped sign text) <|
      match opening with
      | .raw => rawText go next rest
      | .comment => commentText go next rest
      | .output => .token ⟨line, .variableBegin⟩ (go { next with tag := some .output } rest)
      | .block => .token ⟨line, .blockBegin⟩ (go { next with tag := some .block } rest)

/-- The next token of a tag. -/
def inTag : TokenStream :=
  let on := fun (rest : List Char) =>
    go { st with line := st.line + linesTo cs rest, afterDot := false } rest
  let push := fun (lexeme : Lexeme) (rest : List Char) => TokenStream.token ⟨st.line, lexeme⟩ (on rest)
  match cs with
  | [] => .done
  | c :: _ =>
    if isBlank c then on (skipBlanks cs)
    else
      match if st.afterDot then .none else float? cs with
      | some (text, rest) =>
        match floatValue text with
        | .ok x => push (.float x) rest
        | .error e => .failed (.numeral e)
      | .none =>
        match integer? cs with
        | some (.ok n, rest) => push (.int n) rest
        | some (.error e, _) => .failed (.numeral e)
        | .none =>
          if isNameChar c then
            let name := cs.takeWhile isNameChar
            if isIdentifier name then push (.name (String.ofList name)) (cs.dropWhile isNameChar)
            else fail st.line .invalidIdentifier
          else
            match string? cs with
            | some (body, rest) =>
              match Escape.decodeLiteral body with
              | .ok ps => push (.str ps) rest
              | .error e => fail st.line (.escape e)
            | .none =>
              match operator? cs with
              | some (o, rest) =>
                match balance st.opened o with
                | .ok opened =>
                  .token ⟨st.line, .op o⟩ (go { st with opened, afterDot := o == .dot } rest)
                | .error fault => fail st.line fault
              | .none => fail st.line (.unexpectedChar c (total - cs.length))

end Steps

/-- Reads on; every step but the last takes a character, so `fuel` beyond the length is enough. -/
def run (total : Nat) : Nat → State → List Char → TokenStream
  | 0, _, _ => .done
  | fuel + 1, st, cs =>
    match st.tag with
    | .none => betweenTags (run total fuel) st cs
    | some tag =>
      match tagEnd? tag st.opened cs with
      | some (lexeme, rest) =>
        .token ⟨st.line, lexeme⟩
          (run total fuel
            { st with tag := .none, line := st.line + linesTo cs rest, afterDot := false } rest)
      | .none => inTag total (run total fuel) st cs

/-- The text with uniform line breaks, the last one dropped. -/
def normalize (source : String) : List Char :=
  let cs := normalizeNewlines source.toList
  match cs.reverse with
  | '\n' :: rest => rest.reverse
  | _ => cs

end Lexer

/-- The tokens of a template. -/
def TokenStream.ofSource (source : String) : TokenStream :=
  let cs := Lexer.normalize source
  Lexer.run cs.length (cs.length + 1) ⟨none, 1, false, []⟩ cs

end Stencil.Template
