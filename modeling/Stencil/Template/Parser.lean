import Stencil.Template.Token

/-! Reading tokens one after the other: the state of a parser and its elementary steps. -/
namespace Stencil.Template

/-- The tags that a template may use beyond the usual ones. -/
structure Dialect where
  translation : Bool
  debug : Bool

/-- Where a parser stands. The current token has been read, the ones after it have not. -/
structure ParserState where
  current : Token
  rest : TokenStream
  /-- The open tags, the innermost first. -/
  tags : List String
  /-- The tags that end each open body, the innermost first. -/
  ends : List (List String)
  dialect : Dialect

abbrev Parser := StateT ParserState (Except ParseError)

namespace Parser

/-- The token behind `line` in a stream; at the end there is one that says so. -/
def forced (line : Nat) : TokenStream → Except ParseError (Token × TokenStream)
  | .done => .ok (⟨line, .eof⟩, .done)
  | .failed e => .error e
  | .token t rest => .ok (t, rest)

def failAt {α : Type} (line : Nat) (fault : Fault) : Parser α := throw (.malformed ⟨fault, line⟩)

def current : Parser Token := return (← get).current

def lexeme : Parser Lexeme := return (← get).current.lexeme

def line : Parser Nat := return (← get).current.line

/-- The line of the current token as that of a node. -/
def nodeLine : Parser (Option Int) := return some ((← get).current.line : Int)

/-- Fails at the current token. -/
def fail {α : Type} (fault : Fault) : Parser α := do failAt (← line) fault

/-- Goes to the next token and gives back the one before it. -/
def next : Parser Token := do
  let s ← get
  match s.current.lexeme with
  | .eof => return s.current
  | _ =>
    let (t, rest) ← (forced s.current.line s.rest : Except ParseError _)
    set { s with current := t, rest }
    return s.current

/-- The token after the current one. -/
def look : Parser Token := do
  let s ← get
  match s.current.lexeme with
  | .eof => return s.current
  | _ => return (← (forced s.current.line s.rest : Except ParseError _)).1

def isOp (o : Operator) : Parser Bool := return (← lexeme).isOp o

def isName (s : String) : Parser Bool := return (← lexeme).isName s

/-- Passes over the current token if it satisfies `p`. -/
def skipIf (p : Lexeme → Bool) : Parser Bool := do
  if p (← lexeme) then
    let _ ← next
    return true
  else return false

def skipOp (o : Operator) : Parser Bool := skipIf (·.isOp o)

def skipName (s : String) : Parser Bool := skipIf (·.isName s)

/-- Fails because the current token is not the one described. -/
def refuse {α : Type} (wanted : String) : Parser α := do
  let t ← current
  match t.lexeme with
  | .eof => failAt t.line (.endInsteadOf wanted)
  | l => failAt t.line (.expected wanted l.describe)

def expect (p : Lexeme → Bool) (wanted : String) : Parser Token := do
  if p (← lexeme) then next else refuse wanted

def expectOp (o : Operator) : Parser Token := expect (·.isOp o) o.text

def expectKeyword (s : String) : Parser Token := expect (·.isName s) s

def isBlockEnd : Lexeme → Bool
  | .blockEnd => true
  | _ => false

def isVariableEnd : Lexeme → Bool
  | .variableEnd => true
  | _ => false

def expectBlockEnd : Parser Token := expect isBlockEnd Lexeme.blockEnd.describe

def expectVariableEnd : Parser Token := expect isVariableEnd Lexeme.variableEnd.describe

/-- A name with its line. -/
def expectName : Parser (Nat × String) := do
  let t ← current
  match t.lexeme with
  | .name s =>
    let _ ← next
    return (t.line, s)
  | _ => refuse "name"

/-- Reads with `p` while `more` holds, `fuel` times at most. -/
def repeatWhile {α : Type} (more : Parser Bool) (p : Parser α) : Nat → Parser (List α)
  | 0 => return []
  | fuel + 1 => fun s => (do
    if ← more then
      let a ← p
      return a :: (← repeatWhile more p fuel)
    else return []) s

end Parser

end Stencil.Template
