import Stencil.Text.Escape

/-! The tokens of a template and the faults that make a template unreadable. -/
namespace Stencil.Template

inductive Operator
  | add | sub | div | floordiv | mul | mod | pow | tilde
  | lbracket | rbracket | lparen | rparen | lbrace | rbrace
  | eq | ne | gt | gteq | lt | lteq | assign
  | dot | colon | pipe | comma | semicolon
deriving DecidableEq, Repr

namespace Operator

def text : Operator → String
  | add => "+" | sub => "-" | div => "/" | floordiv => "//" | mul => "*" | mod => "%"
  | pow => "**" | tilde => "~"
  | lbracket => "[" | rbracket => "]" | lparen => "(" | rparen => ")"
  | lbrace => "\x7b" | rbrace => "\x7d"
  | eq => "==" | ne => "!=" | gt => ">" | gteq => ">=" | lt => "<" | lteq => "<="
  | assign => "=" | dot => "." | colon => ":" | pipe => "|" | comma => "," | semicolon => ";"

/-- The operator of two characters. -/
def ofPair? : Char → Char → Option Operator
  | '/', '/' => some floordiv
  | '*', '*' => some pow
  | '=', '=' => some eq
  | '!', '=' => some ne
  | '>', '=' => some gteq
  | '<', '=' => some lteq
  | _, _ => none

/-- The operator of one character. -/
def ofChar? : Char → Option Operator
  | '+' => some add | '-' => some sub | '/' => some div | '*' => some mul | '%' => some mod
  | '~' => some tilde | '[' => some lbracket | ']' => some rbracket | '(' => some lparen
  | ')' => some rparen | '{' => some lbrace | '}' => some rbrace | '>' => some gt
  | '<' => some lt | '=' => some assign | '.' => some dot | ':' => some colon
  | '|' => some pipe | ',' => some comma | ';' => some semicolon
  | _ => none

/-- The bracket that closes an opening one. -/
def closing? : Operator → Option Operator
  | lparen => some rparen
  | lbracket => some rbracket
  | lbrace => some rbrace
  | _ => none

def isClosing : Operator → Bool
  | rparen | rbracket | rbrace => true
  | _ => false

end Operator

/-- What a token stands for. -/
inductive Lexeme
  | data (text : String)
  | blockBegin
  | blockEnd
  | variableBegin
  | variableEnd
  | name (text : String)
  | str (points : Text.Points)
  | int (value : Nat)
  | float (value : Float)
  | op (operator : Operator)
  | eof

namespace Lexeme

/-- How error texts name a token. -/
def describe : Lexeme → String
  | data _ => "template data / text"
  | blockBegin => "begin of statement block"
  | blockEnd => "end of statement block"
  | variableBegin => "begin of print statement"
  | variableEnd => "end of print statement"
  | name text => text
  | str _ => "string"
  | int _ => "integer"
  | float _ => "float"
  | op o => o.text
  | eof => "end of template"

def isOp (o : Operator) : Lexeme → Bool
  | op p => o == p
  | _ => false

def isName (s : String) : Lexeme → Bool
  | name t => s == t
  | _ => false

end Lexeme

structure Token where
  line : Nat
  lexeme : Lexeme

/-- Why a template cannot be read. -/
inductive Fault
  | unexpectedChar (c : Char) (position : Nat)
  | unopened (close : Operator)
  | mismatched (close wanted : Operator)
  | unclosedComment
  | unclosedRaw
  | invalidIdentifier
  | escape (error : Text.Escape.Error)
  | expected (token got : String)
  | endInsteadOf (token : String)
  | expectedExpression (got : String)
  | unexpected (token : String)
  | expectedNameOrNumber
  | tagNameExpected
  | notAssignable (kind : String)
  | expectedCall
  | defaultOrder
  | privateImport
  | requiredBlock
  | hyphenatedBlock
  | callSyntax
  | chainedTests
  /-- An unknown tag, or the end of the template if there is no tag. -/
  | misplaced (tag : Option String) (wanted : List String) (outer : Bool) (innermost : Option String)
  | definedTwice (name : String)
  | unknownPlural (name : String)
  | pluralWithoutVariables
  | secondPlural
  | nestedTranslation
  | controlInTranslation (tag : String)
  | unclosedTranslation

namespace Fault

/-- Names in quotes, joined by `or`. -/
def alternatives (names : List String) : String :=
  " or ".intercalate (names.map Text.quote)

def message : Fault → String
  | unexpectedChar c position => s!"unexpected char {Text.quote c.toString} at {position}"
  | unopened close => s!"unexpected '{close.text}'"
  | mismatched close wanted => s!"unexpected '{close.text}', expected '{wanted.text}'"
  | unclosedComment => "Missing end of comment tag"
  | unclosedRaw => "Missing end of raw directive"
  | invalidIdentifier => "Invalid character in identifier"
  | escape error => error.message
  | expected token got => s!"expected token {Text.quote token}, got {Text.quote got}"
  | endInsteadOf token => s!"unexpected end of template, expected {Text.quote token}."
  | expectedExpression got => s!"Expected an expression, got {Text.quote got}"
  | unexpected token => s!"unexpected {Text.quote token}"
  | expectedNameOrNumber => "expected name or number"
  | tagNameExpected => "tag name expected"
  | notAssignable kind => s!"can't assign to {Text.quote kind}"
  | expectedCall => "expected call"
  | defaultOrder => "non-default argument follows default argument"
  | privateImport => "names starting with an underline can not be imported"
  | requiredBlock => "Required blocks can only contain comments or whitespace"
  | hyphenatedBlock =>
    "Block names in Jinja have to be valid Python identifiers and may not contain hyphens, use an " ++
      "underscore instead."
  | callSyntax => "invalid syntax for function call expression"
  | chainedTests => "You cannot chain multiple tests with is"
  | misplaced tag wanted outer innermost =>
    let first := match tag with
      | none => "Unexpected end of template."
      | some t => s!"Encountered unknown tag {Text.quote t}."
    let looking := match wanted with
      | [] => ""
      | _ =>
        if outer then
          " You probably made a nesting mistake. Jinja is expecting this tag, but currently looking" ++
            s!" for {alternatives wanted}."
        else s!" Jinja was looking for the following tags: {alternatives wanted}."
    let closing := match innermost with
      | none => ""
      | some t => s!" The innermost block that needs to be closed is {Text.quote t}."
    first ++ looking ++ closing
  | definedTwice name => s!"translatable variable {Text.quote name} defined twice."
  | unknownPlural name => s!"unknown variable {Text.quote name} for pluralization"
  | pluralWithoutVariables => "pluralize without variables"
  | secondPlural => "a translatable section can have only one pluralize section"
  | nestedTranslation => "trans blocks can't be nested; did you mean `endtrans`?"
  | controlInTranslation tag =>
    s!"control structures in translatable sections are not allowed; saw `{tag}`"
  | unclosedTranslation => "unclosed translation block"

/-- Holds of the faults that concern what a tag says rather than how it is written. -/
def isAssertion : Fault → Bool
  | privateImport | definedTwice _ | unknownPlural _ => true
  | _ => false

end Fault

/-- A template that is no template, with the line that shows it. -/
structure SyntaxError where
  fault : Fault
  line : Nat

/-- A number literal whose text is not read as a number. -/
inductive NumeralError
  /-- An integer of more than 4300 decimal digits. -/
  | tooLong
  /-- A float with digits outside ASCII. -/
  | foreignDigits

inductive ParseError
  | malformed (error : SyntaxError)
  | numeral (error : NumeralError)

/-- The tokens of a template as far as they can be read. -/
inductive TokenStream
  | done
  | failed (error : ParseError)
  | token (head : Token) (tail : TokenStream)

namespace TokenStream

def length : TokenStream → Nat
  | done => 0
  | failed _ => 0
  | token _ tail => tail.length + 1

end TokenStream

end Stencil.Template
