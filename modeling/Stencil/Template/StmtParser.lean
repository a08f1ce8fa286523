import Stencil.Template.Lexer
import Stencil.Template.Translation

/-!
Statements and whole templates. Each statement is given the parser for the bodies inside it; the
tags that end a body are remembered for the texts of errors.
-/
namespace Stencil.Template

namespace Parser

mutual

/-- Holds of the targets that a value can be assigned to. -/
def assignable : Expr → Bool
  | .name _ s _ => !(["true", "false", "none", "True", "False", "None"].contains s)
  | .tuple _ items => assignableAll items
  | .attrRef .. => true
  | _ => false

def assignableAll : List Expr → Bool
  | [] => true
  | e :: es => assignable e && assignableAll es

end

mutual

/-- The target with its names marked as used for assignment. -/
def withUsage (usage : Usage) : Expr → Expr
  | .name line s _ => .name line s usage
  | .tuple line items => .tuple line (withUsageAll usage items)
  | e => e

def withUsageAll (usage : Usage) : List Expr → List Expr
  | [] => []
  | e :: es => withUsage usage e :: withUsageAll usage es

end

section Statements

variable (fuel : Nat)

/-- Fails if the target cannot be assigned to. -/
def checkTarget (usage : Usage) (line : Nat) (e : Expr) : Parser Expr :=
  if assignable e then return withUsage usage e else failAt line (.notAssignable e.kind)

/-- Targets joined by commas. -/
def targets (spaces : Bool) (usage : Usage) : Parser Expr := do
  let e ← tuple fuel false (primary fuel (expression fuel) spaces)
  checkTarget usage ((e.line.getD 0).toNat) e

/-- A single name as a target. -/
def targetName : Parser (Nat × String) := do
  let (line, s) ← expectName
  let _ ← checkTarget .store line (.name (some line) s .store)
  return (line, s)

/-- A name and its default. -/
def parameter (defaults : List Expr) : Parser (String × List Expr) := do
  let (_, s) ← targetName
  if ← skipOp .assign then return (s, defaults ++ [← expression fuel])
  else if defaults.isEmpty then return (s, defaults)
  else fail .defaultOrder

def parameters : Nat → List String → List Expr → Parser (List String × List Expr)
  | 0, params, defaults => return (params, defaults)
  | n + 1, params, defaults => fun s => (do
    if ← isOp .rparen then return (params, defaults)
    if !params.isEmpty then
      let _ ← expectOp .comma
    let (p, defaults) ← parameter fuel defaults
    parameters n (params ++ [p]) defaults) s

/-- Names with defaults between parentheses. -/
def signature : Parser (List String × List Expr) := do
  let _ ← expectOp .lparen
  let r ← parameters fuel fuel [] []
  let _ ← expectOp .rparen
  return r

/-- Whether the context is passed on; only said by two words. -/
def contextChoice : Parser (Option Bool) := do
  let word? : Option Bool := match ← lexeme with
    | .name "with" => some true
    | .name "without" => some false
    | _ => none
  match word? with
  | none => return none
  | some b =>
    if (← look).lexeme.isName "context" then
      let _ ← next
      let _ ← next
      return some b
    else return none

/-- The tags that are looked for, as error texts give them. -/
def misplaced {α : Type} (line : Nat) (tag : Option String) (ends : List (List String)) :
    Parser α := do
  let s ← get
  let outer := match tag with
    | none => false
    | some t => ends.any (·.contains t)
  failAt line (.misplaced tag (ends.headD []) outer s.tags.head?)

/-- The statements of a body and the name token of the tag that ends it. -/
def body (statements : List String → Parser (List Stmt)) (ends : List String) :
    Parser (List Stmt) := do
  let _ ← skipOp .colon
  let _ ← expectBlockEnd
  modify fun s => { s with ends := ends :: s.ends }
  let stmts ← statements ends
  modify fun s => { s with ends := s.ends.tail }
  match ← lexeme with
  | .eof => misplaced (← line) none (ends :: (← get).ends)
  | _ => return stmts

/-- The statements of a body, whose end tag is passed over. -/
def closedBody (statements : List String → Parser (List Stmt)) (close : String) :
    Parser (List Stmt) := do
  let stmts ← body statements [close]
  let _ ← next
  return stmts

variable (statements : List String → Parser (List Stmt))

def forStmt : Parser Stmt := do
  let line : Line := some (← expectKeyword "for").line
  let target ← targets fuel false .store
  let _ ← expectKeyword "in"
  let source ← tuple fuel false (plainExpression fuel)
  let test ← if ← skipName "if" then some <$> expression fuel else pure none
  let recursive ← skipName "recursive"
  let stmts ← body statements ["endfor", "else"]
  let close ← next
  let otherwise ←
    if close.lexeme.isName "endfor" then pure [] else closedBody statements "endfor"
  return .for_ line target source stmts otherwise test recursive

/-- The branches behind an `if` and its `else`. -/
def ifTail : Nat → List Branch → Parser (List Branch × List Stmt)
  | 0, branches => return (branches.reverse, [])
  | n + 1, branches => fun s => (do
    let close ← next
    if close.lexeme.isName "elif" then
      let line ← nodeLine
      let test ← tuple fuel false (plainExpression fuel)
      let stmts ← body statements ["elif", "else", "endif"]
      ifTail n (.mk line test stmts :: branches)
    else if close.lexeme.isName "else" then
      return (branches.reverse, ← closedBody statements "endif")
    else return (branches.reverse, [])) s

def ifStmt : Parser Stmt := do
  let line : Line := some (← expectKeyword "if").line
  let test ← tuple fuel false (plainExpression fuel)
  let stmts ← body statements ["elif", "else", "endif"]
  let (branches, otherwise) ← ifTail fuel statements fuel []
  return .if_ line test stmts branches otherwise

def setStmt : Parser Stmt := do
  let line : Line := some (← next).line
  let target ← targets fuel true .store
  if ← skipOp .assign then return .assign line target (← expressions fuel)
  else
    let filter ← filters fuel (expression fuel) fuel none
    let stmts ← closedBody statements "endset"
    return .assignBlock line target filter stmts

def withItems : Nat → List (Expr × Expr) → Parser (List (Expr × Expr))
  | 0, items => return items
  | n + 1, items => fun s => (do
    if isBlockEnd (← lexeme) then return items
    if !items.isEmpty then
      let _ ← expectOp .comma
    let target ← targets fuel false .parameter
    let _ ← expectOp .assign
    let value ← expression fuel
    withItems n (items ++ [(target, value)])) s

def withStmt : Parser Stmt := do
  let line : Line := some (← next).line
  let items ← withItems fuel fuel []
  let stmts ← closedBody statements "endwith"
  return .with_ line (items.map (·.1)) (items.map (·.2)) stmts

def autoescapeStmt : Parser Stmt := do
  let line : Line := some (← next).line
  let value ← expression fuel
  let stmts ← closedBody statements "endautoescape"
  return .scope none [.scopedOptions line [("autoescape", value)] stmts]

/-- Holds of the statements that a required block may hold: blank text. -/
def isBlankOutput : Stmt → Bool
  | .output _ nodes => nodes.all fun
    | .data _ text => Text.allBlank text
    | _ => false
  | _ => false

def blockStmt : Parser Stmt := do
  let line : Line := some (← next).line
  let (_, name) ← expectName
  let isScoped ← skipName "scoped"
  let required ← skipName "required"
  if ← isOp .sub then fail .hyphenatedBlock
  let stmts ← closedBody statements "endblock"
  if required && !stmts.all isBlankOutput then fail .requiredBlock
  let _ ← skipName name
  return .block line name stmts isScoped required

def extendsStmt : Parser Stmt := do
  let line : Line := some (← next).line
  return .extends_ line (← expression fuel)

def includeStmt : Parser Stmt := do
  let line : Line := some (← next).line
  let template ← expression fuel
  let ignoreMissing ←
    if ← isName "ignore" then
      if (← look).lexeme.isName "missing" then
        let _ ← next
        let _ ← next
        pure true
      else pure false
    else pure false
  let context ← contextChoice
  return .include_ line template (context.getD true) ignoreMissing

def importStmt : Parser Stmt := do
  let line : Line := some (← next).line
  let template ← expression fuel
  let _ ← expectKeyword "as"
  let (_, target) ← targetName
  let context ← contextChoice
  return .import_ line template target (context.getD false)

/-- The context choice behind imported names; its first word may be quoted. -/
def importContext : Parser (Option Bool) := do
  let quoted? : Option Bool := match ← lexeme with
    | .str ps => match Text.Points.toString? ps with
      | some "with" => some true
      | some "without" => some false
      | _ => none
    | _ => none
  match quoted? with
  | none => contextChoice
  | some b =>
    if (← look).lexeme.isName "context" then
      let _ ← next
      let _ ← next
      return some b
    else return none

def importedName : Parser (String × String) := do
  let (line, name) ← targetName
  if name.startsWith "_" then failAt line .privateImport
  if ← skipName "as" then
    let (_, target) ← targetName
    return (name, target)
  else return (name, name)

def importedNames : Nat → List (String × String) → Parser (List (String × String) × Option Bool)
  | 0, names => return (names, none)
  | n + 1, names => fun s => (do
    if !names.isEmpty then
      let _ ← expectOp .comma
    match ← lexeme with
    | .name _ =>
      match ← contextChoice with
      | some b => return (names, some b)
      | none =>
        let names := names ++ [← importedName]
        match ← importContext with
        | some b => return (names, some b)
        | none => if ← isOp .comma then importedNames n names else return (names, none)
    | _ => refuse "name") s

def fromStmt : Parser Stmt := do
  let line : Line := some (← next).line
  let template ← expression fuel
  let _ ← expectKeyword "import"
  let (names, context) ← importedNames fuel []
  return .fromImport line template names (context.getD false)

def callStmt : Parser Stmt := do
  let start := (← next).line
  let (params, defaults) ← if ← isOp .lparen then signature fuel else pure ([], [])
  let call ← expression fuel
  match call with
  | .call .. =>
    let stmts ← closedBody statements "endcall"
    return .callBlock (some start) call params defaults stmts
  | _ => failAt start .expectedCall

def filterStmt : Parser Stmt := do
  let line : Line := some (← next).line
  let first ← filterStep fuel (expression fuel) none
  let filter ← filters fuel (expression fuel) fuel (some first)
  let stmts ← closedBody statements "endfilter"
  return .filterBlock line stmts (filter.getD first)

def macroStmt : Parser Stmt := do
  let line : Line := some (← next).line
  let (_, name) ← targetName
  let (params, defaults) ← signature fuel
  let stmts ← closedBody statements "endmacro"
  return .macro_ line name params defaults stmts

def printItems : Nat → List Expr → Parser (List Expr)
  | 0, items => return items
  | n + 1, items => fun s => (do
    if isBlockEnd (← lexeme) then return items
    if !items.isEmpty then
      let _ ← expectOp .comma
    let e ← expression fuel
    printItems n (items ++ [e])) s

def printStmt : Parser Stmt := do
  let line : Line := some (← next).line
  return .output line (← printItems fuel fuel [])

def doStmt : Parser Stmt := do
  let line : Line := some (← next).line
  return .exprStmt line (← expressions fuel)

/-- A dump of the context: a call of something that no template can name. -/
def debugStmt : Parser Stmt := do
  let line : Line := some (← next).line
  return .output line
    [.call line (.other line "ExtensionAttribute" []) [.context line] [] none none]

/-- The statement of a known tag. -/
def tagStmt? (dialect : Dialect) (tag : String) : Option (Parser (List Stmt)) :=
  let one := fun (p : Parser Stmt) => some (do return [← p])
  match tag with
  | "for" => one (forStmt fuel statements)
  | "if" => one (ifStmt fuel statements)
  | "block" => one (blockStmt statements)
  | "extends" => one (extendsStmt fuel)
  | "print" => one (printStmt fuel)
  | "macro" => one (macroStmt fuel statements)
  | "include" => one (includeStmt fuel)
  | "from" => one (fromStmt fuel)
  | "import" => one (importStmt fuel)
  | "set" => one (setStmt fuel statements)
  | "with" => one (withStmt fuel statements)
  | "autoescape" => one (autoescapeStmt fuel statements)
  | "call" => one (callStmt fuel statements)
  | "filter" => one (filterStmt fuel statements)
  | "do" => one (doStmt fuel)
  | "break" => one (do return .break_ (some ((← next).line : Int)))
  | "continue" => one (do return .continue_ (some ((← next).line : Int)))
  | "trans" => if dialect.translation then some (translation fuel (expression fuel)) else none
  | "debug" => if dialect.debug then one debugStmt else none
  | _ => none

/-- The statement of the tag that starts at the current token. -/
def statement : Parser (List Stmt) := do
  let t ← current
  match t.lexeme with
  | .name tag =>
    match tagStmt? fuel statements (← get).dialect tag with
    | none => misplaced t.line (some tag) (← get).ends
    | some p =>
      modify fun s => { s with tags := tag :: s.tags }
      let stmts ← p
      modify fun s => { s with tags := s.tags.tail }
      return stmts
  | _ => failAt t.line .tagNameExpected

/-- The pieces of text and output gathered so far as one statement. -/
def flush (pieces : List Expr) (stmts : List Stmt) : List Stmt :=
  match pieces.reverse with
  | [] => stmts
  | e :: es => .output e.line (e :: es) :: stmts

/-- Statements up to one of the end tags or the end of the template. -/
def items (ends : List String) : Nat → List Expr → List Stmt → Parser (List Stmt)
  | 0, pieces, stmts => return (flush pieces stmts).reverse
  | n + 1, pieces, stmts => fun s => (do
    let t ← current
    match t.lexeme with
    | .data text =>
      let _ ← next
      items ends n (.data (some t.line) text :: pieces) stmts
    | .variableBegin =>
      let _ ← next
      let e ← expressions fuel
      let _ ← expectVariableEnd
      items ends n (e :: pieces) stmts
    | .blockBegin =>
      let stmts := flush pieces stmts
      let _ ← next
      let ended := match ← lexeme with
        | .name tag => ends.contains tag
        | _ => false
      if ended then return stmts.reverse
      let more ← statement fuel statements
      let _ ← expectBlockEnd
      items ends n [] (more.reverse ++ stmts)
    | _ => return (flush pieces stmts).reverse) s

end Statements

/-- Statements inside each other to any depth below `fuel`. -/
def statements : Nat → List String → Parser (List Stmt)
  | 0, _ => fun _ => throw (.malformed ⟨.unexpected "", 0⟩)
  | fuel + 1, ends => fun s => items fuel (statements fuel) ends (fuel + 1) [] [] s

end Parser

/-- Reads a template. Brackets and tags nest no deeper than there are tokens. -/
def Document.parse (dialect : Dialect) (source : String) : Except ParseError Document := do
  let stream := TokenStream.ofSource source
  let (current, rest) ← Parser.forced 1 stream
  let (body, _) ← (Parser.statements (stream.length + 2) []).run ⟨current, rest, [], [], dialect⟩
  return ⟨body⟩

end Stencil.Template
