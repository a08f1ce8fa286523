import Stencil.Template.Parser
import Stencil.Template.Syntax

/-!
Expressions. From the loosest to the tightest: conditionals, `or`, `and`, `not`, comparisons, sums,
concatenations, products, powers, signs, filters and tests, attributes, items and calls.  Each level
is given the parser for whole expressions that it needs inside brackets; `fuel` bounds the number of
operators of one level.
-/
namespace Stencil.Template.Parser

/-- Positional, named and spread arguments. -/
structure Args where
  args : List Expr
  named : List (String × Expr)
  rest : Option Expr
  restNamed : Option Expr

section Levels

variable (fuel : Nat) (expression : Parser Expr)

/-- The expression of a list, or of one item where no comma follows. -/
def tupleTail (line : Nat) (isTuple explicit : Bool) (items : List Expr) : Parser Expr := do
  match isTuple, items with
  | false, [e] => return e
  | false, [] =>
    if explicit then return .tuple (some line) []
    else fail (.expectedExpression (← lexeme).describe)
  | _, _ => return .tuple (some line) items

/-- Tokens that end a tuple without brackets. -/
def endsTuple : Lexeme → Bool
  | .variableEnd | .blockEnd => true
  | .op .rparen => true
  | _ => false

/-- Items with commas between them: the items, whether a comma stands behind the last, and the line
that a tuple of them gets. -/
def tupleItems (item : Parser Expr) :
    Nat → Nat → Bool → List Expr → Parser (Nat × Bool × List Expr)
  | 0, line, isTuple, items => return (line, isTuple, items.reverse)
  | n + 1, line, isTuple, items => fun s => (do
    if !items.isEmpty then
      let _ ← expectOp .comma
    if endsTuple (← lexeme) then return (line, isTuple, items.reverse)
    let e ← item
    if ← isOp .comma then tupleItems item n (← Parser.line) true (e :: items)
    else return (line, isTuple, (e :: items).reverse)) s

def tuple (explicit : Bool) (item : Parser Expr) : Parser Expr := do
  let line ← Parser.line
  let (line, isTuple, items) ← tupleItems item fuel line false []
  tupleTail line isTuple explicit items

/-- Items up to a closing bracket; a comma may stand behind the last. -/
def itemsUntil {α : Type} (close : Operator) (item : Parser α) : Nat → List α → Parser (List α)
  | 0, items => return items.reverse
  | n + 1, items => fun s => (do
    if ← isOp close then return items.reverse
    if !items.isEmpty then
      let _ ← expectOp .comma
    if ← isOp close then return items.reverse
    let a ← item
    itemsUntil close item n (a :: items)) s

def listLiteral : Parser Expr := do
  let t ← expectOp .lbracket
  let items ← itemsUntil .rbracket expression fuel []
  let _ ← expectOp .rbracket
  return .list (some t.line) items

def dictItem : Parser (Expr × Expr) := do
  let key ← expression
  let _ ← expectOp .colon
  let value ← expression
  return (key, value)

def dictLiteral : Parser Expr := do
  let t ← expectOp .lbrace
  let items ← itemsUntil .rbrace (dictItem expression) fuel []
  let _ ← expectOp .rbrace
  return .dict (some t.line) items

/-- The strings that follow each other. -/
def adjacentStrings : Nat → Parser Text.Points
  | 0 => return []
  | n + 1 => fun s => (do
    match ← lexeme with
    | .str ps =>
      let _ ← next
      return ps ++ (← adjacentStrings n)
    | _ => return []) s

/-- A name, a literal or a bracket. With `spaces`, a name with an attribute is a namespace
target. -/
def primary (spaces : Bool) : Parser Expr := do
  let t ← current
  let line : Line := some t.line
  match t.lexeme with
  | .name s =>
    let _ ← next
    match s with
    | "true" | "True" => return .const line (.bool true)
    | "false" | "False" => return .const line (.bool false)
    | "none" | "None" => return .const line .none
    | _ =>
      if spaces && (← isOp .dot) then
        let _ ← next
        let (_, attr) ← expectName
        return .attrRef line s attr
      else return .name line s .load
  | .str ps =>
    let _ ← next
    return .const line (.str (ps ++ (← adjacentStrings fuel)))
  | .int n =>
    let _ ← next
    return .const line (.int n)
  | .float x =>
    let _ ← next
    return .const line (.float x)
  | .op .lparen =>
    let _ ← next
    let e ← tuple fuel true expression
    let _ ← expectOp .rparen
    return e
  | .op .lbracket => listLiteral fuel expression
  | .op .lbrace => dictLiteral fuel expression
  | l => failAt t.line (.unexpected l.describe)

/-- The bound of a slice, if there is one. -/
def sliceBound : Parser (Option Expr) := do
  match ← lexeme with
  | .op .rbracket | .op .comma => return none
  | _ => return some (← expression)

/-- One index between brackets: an expression or a slice. -/
def subscript : Parser Expr := do
  let line ← nodeLine
  let start ← if ← isOp .colon then pure none else some <$> expression
  match start, ← isOp .colon with
  | some e, false => return e
  | _, _ =>
    let _ ← next
    let stop ← if ← isOp .colon then pure none else sliceBound expression
    let step ← if ← skipOp .colon then sliceBound expression else pure none
    return .slice line start stop step

/-- Indices up to the closing bracket; no comma may stand behind the last. -/
def subscripts : Nat → List Expr → Parser (List Expr)
  | 0, items => return items.reverse
  | n + 1, items => fun s => (do
    if ← isOp .rbracket then return items.reverse
    if !items.isEmpty then
      let _ ← expectOp .comma
    let e ← subscript expression
    subscripts n (e :: items)) s

/-- One argument added to those before it. -/
def argument (line : Nat) (a : Args) : Parser Args := do
  let ensure := fun (b : Bool) => if b then pure () else failAt (α := Unit) line .callSyntax
  match ← lexeme with
  | .op .mul =>
    ensure (a.rest.isNone && a.restNamed.isNone)
    let _ ← next
    return { a with rest := some (← expression) }
  | .op .pow =>
    ensure a.restNamed.isNone
    let _ ← next
    return { a with restNamed := some (← expression) }
  | l =>
    let key? ← match l with
      | .name key => if (← look).lexeme.isOp .assign then pure (some key) else pure none
      | _ => pure none
    match key? with
    | some key =>
      ensure a.restNamed.isNone
      let _ ← next
      let _ ← next
      return { a with named := a.named ++ [(key, ← expression)] }
    | none =>
      ensure (a.rest.isNone && a.restNamed.isNone && a.named.isEmpty)
      return { a with args := a.args ++ [← expression] }

def arguments (line : Nat) : Nat → Bool → Args → Parser Args
  | 0, _, a => return a
  | n + 1, comma, a => fun s => (do
    if ← isOp .rparen then return a
    if comma then
      let _ ← expectOp .comma
    if comma && (← isOp .rparen) then return a
    let a ← argument expression line a
    arguments line n true a) s

/-- Arguments between parentheses. -/
def callArgs : Parser Args := do
  let t ← expectOp .lparen
  let a ← arguments expression t.line fuel false ⟨[], [], none, none⟩
  let _ ← expectOp .rparen
  return a

def call (callee : Expr) : Parser Expr := do
  let line ← nodeLine
  let a ← callArgs fuel expression
  return .call line callee a.args a.named a.rest a.restNamed

/-- An attribute or item of `owner`. -/
def access (owner : Expr) : Parser Expr := do
  let t ← next
  let line : Line := some t.line
  match t.lexeme with
  | .op .dot =>
    let a ← next
    match a.lexeme with
    | .name s => return .attr line owner s
    | .int n => return .item line owner (.const (some a.line) (.int n))
    | _ => failAt a.line .expectedNameOrNumber
  | _ =>
    let items ← subscripts expression fuel []
    let _ ← expectOp .rbracket
    match items with
    | [e] => return .item line owner e
    | _ => return .item line owner (.tuple line items)

/-- Attributes, items and calls behind an expression. -/
def postfixes : Nat → Expr → Parser Expr
  | 0, e => return e
  | n + 1, e => fun s => (do
    match ← lexeme with
    | .op .dot | .op .lbracket => postfixes n (← access fuel expression e)
    | .op .lparen => postfixes n (← call fuel expression e)
    | _ => return e) s

/-- A name with dots in it. -/
def dottedTail : Nat → String → Parser String
  | 0, name => return name
  | n + 1, name => fun s => (do
    if ← skipOp .dot then
      let (_, more) ← expectName
      dottedTail n (name ++ "." ++ more)
    else return name) s

def noArgs : Args := ⟨[], [], none, none⟩

/-- The name and arguments of a filter. -/
def filterStep (input : Option Expr) : Parser Expr := do
  let (line, first) ← expectName
  let name ← dottedTail fuel first
  let a ← if ← isOp .lparen then callArgs fuel expression else pure noArgs
  return .filter (some line) input name a.args a.named a.rest a.restNamed

/-- Filters, each behind a bar. -/
def filters : Nat → Option Expr → Parser (Option Expr)
  | 0, input => return input
  | n + 1, input => fun s => (do
    if ← skipOp .pipe then filters n (some (← filterStep fuel expression input))
    else return input) s

/-- Holds of tokens that start the single argument of a test without parentheses. -/
def startsTestArgument : Lexeme → Bool
  | .name s => s != "else" && s != "or" && s != "and"
  | .str _ | .int _ | .float _ | .op .lbracket | .op .lbrace => true
  | _ => false

def testArgs : Parser Args := do
  match ← lexeme with
  | .op .lparen => callArgs fuel expression
  | l =>
    if startsTestArgument l then
      if l.isName "is" then fail .chainedTests
      else
        let e ← primary fuel expression false
        return { noArgs with args := [← postfixes fuel expression fuel e] }
    else return noArgs

/-- A test behind `is`, with `not` in front of it perhaps. -/
def test (input : Expr) : Parser Expr := do
  let t ← next
  let line : Line := some t.line
  let negated ← skipName "not"
  let (_, first) ← expectName
  let name ← dottedTail fuel first
  let a ← testArgs fuel expression
  let e := Expr.test line input name a.args a.named a.rest a.restNamed
  return if negated then .unary line .not e else e

/-- Filters, tests and calls behind an expression. -/
def filtersAndTests : Nat → Expr → Parser Expr
  | 0, e => return e
  | n + 1, e => fun s => (do
    match ← lexeme with
    | .op .pipe =>
      let r ← filters fuel expression fuel (some e)
      filtersAndTests n (r.getD e)
    | .name "is" => filtersAndTests n (← test fuel expression e)
    | .op .lparen => filtersAndTests n (← call fuel expression e)
    | _ => return e) s

/-- The signs in front of an operand, with their lines. -/
def signs : Nat → Parser (List (Line × UnaryOp))
  | 0 => return []
  | n + 1 => fun s => (do
    let line ← nodeLine
    match ← lexeme with
    | .op .sub =>
      let _ ← next
      return (line, UnaryOp.neg) :: (← signs n)
    | .op .add =>
      let _ ← next
      return (line, UnaryOp.pos) :: (← signs n)
    | _ => return []) s

/-- A signed operand; filters and tests apply to the whole of it. -/
def unary : Parser Expr := do
  let ops ← signs fuel
  let e ← primary fuel expression false
  let e ← postfixes fuel expression fuel e
  filtersAndTests fuel expression fuel (ops.foldr (fun o e => .unary o.1 o.2 e) e)

/-- Operators of one level group to the left. -/
def binaryTail (ops : Lexeme → Option BinaryOp) (operand : Parser Expr) :
    Nat → Line → Expr → Parser Expr
  | 0, _, left => return left
  | n + 1, line, left => fun s => (do
    match ops (← lexeme) with
    | none => return left
    | some op =>
      let _ ← next
      let right ← operand
      binaryTail ops operand n (← nodeLine) (.binary line op left right)) s

def binary (ops : Lexeme → Option BinaryOp) (operand : Parser Expr) : Parser Expr := do
  let line ← nodeLine
  let left ← operand
  binaryTail ops operand fuel line left

def power : Parser Expr :=
  binary fuel (fun | .op .pow => some .pow | _ => none) (unary fuel expression)

def product : Parser Expr :=
  binary fuel
    (fun
      | .op .mul => some .mul
      | .op .div => some .div
      | .op .floordiv => some .floordiv
      | .op .mod => some .mod
      | _ => none)
    (power fuel expression)

def concatenation : Parser Expr := do
  let line ← nodeLine
  let first ← product fuel expression
  let others ← repeatWhile (skipOp .tilde) (product fuel expression) fuel
  return if others.isEmpty then first else .concat line (first :: others)

def sum : Parser Expr :=
  binary fuel (fun | .op .add => some .add | .op .sub => some .sub | _ => none)
    (concatenation fuel expression)

/-- Passes over a comparison operator. -/
def compareOp? : Parser (Option CompareOp) := do
  let simple : Option CompareOp := match ← lexeme with
    | .op .eq => some .eq
    | .op .ne => some .ne
    | .op .gt => some .gt
    | .op .gteq => some .gteq
    | .op .lt => some .lt
    | .op .lteq => some .lteq
    | .name "in" => some .in_
    | _ => none
  match simple with
  | some op =>
    let _ ← next
    return some op
  | none =>
    if ← isName "not" then
      if (← look).lexeme.isName "in" then
        let _ ← next
        let _ ← next
        return some .notIn
      else return none
    else return none

/-- The comparisons behind an operand and the line of the token after them. -/
def comparisons (operand : Parser Expr) : Nat → Parser (List (CompareOp × Expr))
  | 0 => return []
  | n + 1 => fun s => (do
    match ← compareOp? with
    | none => return []
    | some op =>
      let e ← operand
      return (op, e) :: (← comparisons operand n)) s

def comparison : Parser Expr := do
  let first ← sum fuel expression
  let others ← comparisons (sum fuel expression) fuel
  let line ← nodeLine
  return if others.isEmpty then first else .compare line first others

/-- Negations in front of a comparison. -/
def negation : Parser Expr := do
  let lines ← repeatWhile (isName "not") (do return some ((← next).line : Int)) fuel
  let e ← comparison fuel expression
  return lines.foldr (fun line e => .unary line .not e) e

def conjunction : Parser Expr :=
  binary fuel (fun | .name "and" => some .and | _ => none) (negation fuel expression)

def disjunction : Parser Expr :=
  binary fuel (fun | .name "or" => some .or | _ => none) (conjunction fuel expression)

/-- Conditions behind an expression. -/
def conditions : Nat → Line → Expr → Parser Expr
  | 0, _, e => return e
  | n + 1, line, e => fun s => (do
    if ← skipName "if" then
      let test ← disjunction fuel expression
      let otherwise ← if ← skipName "else" then some <$> expression else pure none
      conditions n (← nodeLine) (.cond line test e otherwise)
    else return e) s

def conditional : Parser Expr := do
  let line ← nodeLine
  let e ← disjunction fuel expression
  conditions fuel expression fuel line e

end Levels

/-- An expression of any level. -/
def expression : Nat → Parser Expr
  | 0 => fun _ => throw (.malformed ⟨.unexpected "", 0⟩)
  | fuel + 1 => fun s => conditional fuel (expression fuel) s

/-- An expression without conditions outside brackets. -/
def plainExpression (fuel : Nat) : Parser Expr := disjunction fuel (expression fuel)

/-- An expression or a tuple without brackets. -/
def expressions (fuel : Nat) : Parser Expr := tuple fuel false (expression fuel)

end Stencil.Template.Parser
