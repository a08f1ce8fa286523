import Stencil.Code.Name
import Stencil.Code.Token
import Stencil.Code.Tree

/-!
The grammar of generated code. It is checked for its shape alone: what a name means, or whether a
loop is around a `break`, does not matter.
-/
namespace Stencil.Code.Grammar

structure State where
  /-- The tokens left; the last is the end of the text. -/
  rest : List Token
  /-- The number of open brackets. -/
  depth : Nat
  /-- The indentation of the present block. -/
  indent : Nat
  /-- The end of what has been read. -/
  stop : Nat
  endRow : Nat

abbrev Read := StateT State Option

def fail {α : Type} : Read α := fun _ => none

def orElse {α : Type} (p q : Read α) : Read α := fun s => (p s).or (q s)

def head? (s : State) : Option Token := s.rest.head?

/-- Holds if a token belongs to the line that is being read. -/
def sameLine (s : State) (t : Token) : Bool :=
  t.shape ≠ .stop && (s.depth > 0 || t.indent.isNone)

/-- The next token on the line. -/
def inLine : Read (Option Token) := return (← get).rest.head?.filter (sameLine (← get))

/-- The next token where a line cannot end: it may stand on a further line of the block. -/
def needed : Read Token := do
  let s ← get
  match s.rest.head? with
  | some t =>
    if t.shape ≠ .stop && (sameLine s t || t.indent.all (s.indent ≤ ·)) then return t else fail
  | none => fail

def consume (t : Token) : Read Unit :=
  modify fun s => { s with rest := s.rest.tail, stop := t.stop, endRow := t.endRow }

def looksAt (text : String) : Read Bool := return (← inLine).any (·.is text)

def accept (text : String) : Read Bool := do
  match ← inLine with
  | some t =>
    if t.is text then
      consume t
      return true
    else return false
  | none => return false

def expect (text : String) : Read Unit := do
  let t ← needed
  if t.is text then consume t else fail

/-- Accepts a token that goes on with what is in front of it, also on a further line. -/
def continues (word : String) : Read Bool := do
  let s ← get
  match s.rest.head? with
  | some t =>
    if t.is word && t.indent.all (s.indent ≤ ·) then
      consume t
      return true
    else return false
  | none => return false

def nested {α : Type} (p : Read α) : Read α := do
  modify fun s => { s with depth := s.depth + 1 }
  let a ← p
  modify fun s => { s with depth := s.depth - 1 }
  return a

/-- Reads a part and gives it its extent. -/
def spanned (p : Read (Kind × List Node)) : Read Node := do
  let t ← needed
  let (kind, children) ← p
  let s ← get
  return .mk kind ⟨t.start, s.stop, t.row, s.endRow⟩ children

/-- A larger part that begins with `first`. -/
def grown (first : Node) (kind : Kind) (children : List Node) : Read Node := do
  let s ← get
  return .mk kind { first.extent with stop := s.stop, endRow := s.endRow } children

/-- Reads with `p` as long as it gives something, once for each token at most. -/
def manyUpTo {α : Type} (p : Read (Option α)) : Nat → Read (List α)
  | 0 => return []
  | n + 1 => fun s => (do
    match ← p with
    | some a => return a :: (← manyUpTo p n)
    | none => return []) s

def many {α : Type} (p : Read (Option α)) : Read (List α) := do manyUpTo p ((← get).rest.length + 1)

/-- Keywords that cannot be used as names. -/
def isHard (s : String) : Bool := isKeyword s && s != "async" && s != "await"

def isIdentifier (t : Token) : Bool := t.shape = .name && !isHard t.text

def identifier : Read Token := do
  let t ← needed
  if isIdentifier t then
    consume t
    return t
  else fail

/-- The token behind the next one. -/
def second? : Read (Option Token) := return (← get).rest.tail.head?

section Expressions

variable (expr : Read Node)

/-- A value, or one with a star in front of it. -/
def starred : Read Node := do
  if (← needed).is "*" then
    spanned do
      expect "*"
      return (.spread, [← expr])
  else expr

def yieldTail : Read (List Node) := do
  if ← accept "from" then return [← expr]
  else
    match ← inLine with
    | none => return []
    | some t =>
      if [")", "]", "\x7d", ";", "="].contains t.text && t.shape = .symbol then return []
      else
        let first ← starred expr
        let more ← many do
          if ← accept "," then
            match ← inLine with
            | none => return none
            | some t => if t.is ")" then return none else return some (← starred expr)
          else return none
        return first :: more

def yieldExpr : Read Node := spanned do
  expect "yield"
  return (.other, ← yieldTail expr)

/-- An item of a list, set or tuple. -/
def element : Read Node := do
  if (← needed).is "yield" then yieldExpr expr else starred expr

/-- Further items up to a closing bracket; a comma may stand behind the last. -/
def elements (item : Read Node) (close : String) : Read (List Node) := do
  let more ← many do
    if ← accept "," then
      if ← looksAt close then return none else return some (← item)
    else return none
  expect close
  return more

/-- Targets with commas between them. -/
def targets (postfix_ : Read Node) : Read (List Node) := do
  let target := do
    let t ← needed
    let n ← if t.is "*" then spanned (do
        expect "*"
        return (.spread, [← postfix_]))
      else postfix_
    if n.isTarget then return n else fail
  let first ← target
  let more ← many do
    if ← accept "," then
      if ← looksAt "in" then return none else return some (← target)
    else return none
  return first :: more

/-- A clause of a comprehension. -/
def clause (postfix_ : Read Node) : Read (Option Node) := do
  if (← looksAt "for") || ((← looksAt "async") && (← second?).any (·.is "for")) then
    return some (← spanned (do
      let _ ← accept "async"
      expect "for"
      let ts ← targets postfix_
      expect "in"
      let first ← expr
      let more ← many do
        if ← accept "," then
          match ← inLine with
          | some t =>
            if t.shape = .symbol && [")", "]", "\x7d"].contains t.text then return none
            else return some (← expr)
          | none => return none
        else return none
      return (.other, ts ++ first :: more)))
  else if ← looksAt "if" then
    return some (← spanned (do
      expect "if"
      return (.other, [← expr])))
  else return none

/-- Holds in front of the first clause of a comprehension. -/
def atClause : Read Bool := do
  if ← looksAt "for" then return true
  else return (← looksAt "async") && (← second?).any (·.is "for")

def parenthesized (postfix_ : Read Node) : Read Node := spanned do
  expect "("
  nested do
    if ← accept ")" then return (.tuple, [])
    let first ← element expr
    if ← atClause then
      let clauses ← many (clause expr postfix_)
      expect ")"
      return (.generator, first :: clauses)
    if ← looksAt "," then return (.tuple, first :: (← elements (element expr) ")"))
    expect ")"
    return (.parens, [first])

def bracketed (postfix_ : Read Node) : Read Node := spanned do
  expect "["
  nested do
    if ← accept "]" then return (.list, [])
    let first ← element expr
    if ← atClause then
      let clauses ← many (clause expr postfix_)
      expect "]"
      return (.other, first :: clauses)
    return (.list, first :: (← elements (element expr) "]"))

/-- An entry of a dictionary. -/
def entry : Read Node := spanned do
  if ← accept "**" then return (.spread, [← expr])
  else
    let key ← expr
    expect ":"
    return (.other, [key, ← expr])

def braced (postfix_ : Read Node) : Read Node := spanned do
  expect "\x7b"
  nested do
    let _ ← accept ","
    if ← accept "\x7d" then return (.other, [])
    let first ← orElse (entry expr) (element expr)
    let item := match first.kind with
      | .other => orElse (entry expr) (element expr)
      | .spread => orElse (entry expr) (element expr)
      | _ => element expr
    if ← atClause then
      let clauses ← many (clause expr postfix_)
      expect "\x7d"
      return (.other, first :: clauses)
    return (.other, first :: (← elements item "\x7d"))

/-- A literal; several next to each other make one value. -/
def quoted : Read Node := do
  let one := spanned do
    let t ← needed
    if t.shape = .quoted then
      consume t
      return (.quoted, [])
    else fail
  let first ← one
  let more ← many do
    if (← inLine).any (·.shape = .quoted) then return some (← one) else return none
  if more.isEmpty then return first else grown first .other (first :: more)

def atom (postfix_ : Read Node) : Read Node := do
  let t ← needed
  match t.shape with
  | .quoted => quoted
  | .number => spanned do
    consume t
    return (.other, [])
  | .name =>
    if isIdentifier t then
      spanned do
        consume t
        return (.name, [])
    else if ["True", "False", "None"].contains t.text then
      spanned do
        consume t
        return (.other, [])
    else fail
  | .symbol =>
    if t.text == "(" then parenthesized expr postfix_
    else if t.text == "[" then bracketed expr postfix_
    else if t.text == "\x7b" then braced expr postfix_
    else if t.text == "..." then
      spanned do
        consume t
        return (.other, [])
    else fail
  | .stop => fail

/-- The end of a slice behind its first colon. -/
def sliceTail : Read (List Node) := do
  let bound := do
    if (← looksAt ":") || (← looksAt ",") || (← looksAt "]") then return []
    else return [← expr]
  let stop ← bound
  if ← accept ":" then return stop ++ (← bound) else return stop

def subscriptItem : Read Node := spanned do
  if ← accept ":" then return (.other, ← sliceTail expr)
  else
    let e ← starred expr
    if ← accept ":" then return (.other, e :: (← sliceTail expr)) else return (.other, [e])

def argument : Read Node := do
  let t ← needed
  if t.is "**" then
    spanned do
      expect "**"
      return (.spread, [← expr])
  else if isIdentifier t && (← second?).any (·.is "=") then
    spanned do
      consume t
      expect "="
      return (.other, [← expr])
  else starred expr

/-- The arguments of a call, or a generator in their place. -/
def arguments (postfix_ : Read Node) : Read Node := spanned do
  expect "("
  nested do
    if ← accept ")" then return (.arguments, [])
    if ← accept "," then
      expect ")"
      return (.arguments, [])
    let first ← argument expr
    if ← atClause then
      let clauses ← many (clause expr postfix_)
      expect ")"
      return (.generator, first :: clauses)
    return (.arguments, first :: (← elements (argument expr) ")"))

/-- Attributes, subscripts and calls behind a value. -/
def trailers (postfix_ : Read Node) : Nat → Node → Read Node
  | 0, n => return n
  | fuel + 1, n => fun s => (do
    if ← accept "." then
      let _ ← identifier
      trailers postfix_ fuel (← grown n .member [n])
    else if ← looksAt "[" then
      expect "["
      let items ← nested do
        let first ← subscriptItem expr
        return first :: (← elements (subscriptItem expr) "]")
      trailers postfix_ fuel (← grown n .subscript (n :: items))
    else if ← looksAt "(" then
      let args ← arguments expr postfix_
      trailers postfix_ fuel (← grown n .call [n, args])
    else return n) s

/-- A value with what stands behind it. Targets inside are read by `inner`. -/
def postfixed (inner : Read Node) : Read Node := do
  let n ← atom expr inner
  trailers expr inner ((← get).rest.length + 1) n

/-- Holds of tokens that begin a value and nothing else. -/
def beginsValue (t : Token) : Bool :=
  t.shape = .quoted || t.shape = .number ||
    (t.shape = .name && (isIdentifier t || ["True", "False", "None"].contains t.text))

def unary (postfix_ : Read Node) : Read Node := do
  let first ← needed
  let ops ← many do
    let t ← needed
    if t.is "+" || t.is "-" || t.is "~" then
      consume t
      return some ()
    else if t.is "await" && (← second?).any (fun u => u.indent.isNone && beginsValue u) then
      consume t
      return some ()
    else return none
  let n ← postfix_
  if ops.isEmpty then return n
  else
    let s ← get
    return .mk .other ⟨first.start, s.stop, first.row, s.endRow⟩ [n]

/-- Operands with operators between them. -/
def chain (operator : Read Bool) (operand : Read Node) : Read Node := do
  let first ← operand
  let more ← many do
    if ← operator then return some (← operand) else return none
  if more.isEmpty then return first else grown first .other (first :: more)

def acceptAny (texts : List String) : Read Bool := do
  match ← inLine with
  | some t =>
    if texts.any t.is then
      consume t
      return true
    else return false
  | none => return false

def arithmetic (postfix_ : Read Node) : Read Node :=
  chain (acceptAny ["+", "-", "*", "@", "/", "%", "//", "**", "|", "&", "^", "<<", ">>"])
    (unary postfix_)

def comparison (postfix_ : Read Node) : Read Node :=
  chain
    (do
      if ← acceptAny ["<", "<=", "==", "!=", ">=", ">", "<>", "in"] then return true
      else if ← accept "is" then
        let _ ← accept "not"
        return true
      else if (← looksAt "not") && (← second?).any (·.is "in") then
        expect "not"
        expect "in"
        return true
      else return false)
    (arithmetic postfix_)

/-- A parameter of a function; with `typed` it may have a type. -/
def parameter (typed : Bool) : Read Node := spanned do
  let type := do
    if typed then
      if ← accept ":" then return [← starred expr] else return []
    else return []
  if ← accept "/" then return (.other, [])
  else if ← accept "**" then
    let _ ← identifier
    return (.other, ← type)
  else if ← accept "*" then
    if (← inLine).any isIdentifier then
      let _ ← identifier
      return (.other, ← type)
    else return (.other, [])
  else
    let _ ← identifier
    let t ← type
    if ← accept "=" then return (.other, t ++ [← expr]) else return (.other, t)

/-- Parameters up to a closing token. -/
def parameters (typed : Bool) (close : String) : Read (List Node) := do
  if ← accept close then return []
  let first ← parameter expr typed
  return first :: (← elements (parameter expr typed) close)

def lambda : Read Node := spanned do
  expect "lambda"
  let ps ← parameters expr false ":"
  return (.other, ps ++ [← expr])

/-- A name with a value given to it on the way. -/
def walrus (n : Node) : Read Node := do
  if n.kind = .name then
    if ← accept ":=" then grown n .other [n, ← expr] else return n
  else return n

/-- An operand of `and` and `or`. -/
def operand (postfix_ : Read Node) : Read Node := do
  let first ← needed
  let nots ← many do
    if (← needed).is "not" then
      expect "not"
      return some ()
    else return none
  let n ← do
    if (← needed).is "lambda" then lambda expr
    else
      let n ← comparison postfix_
      walrus expr n
  if nots.isEmpty then return n
  else
    let s ← get
    return .mk .other ⟨first.start, s.stop, first.row, s.endRow⟩ [n]

/-- A condition behind a value, or an alias. -/
def conditional (n : Node) : Read Node := do
  let tail : Read Node := do
    expect "if"
    let test ← expr
    expect "else"
    grown n .other [n, test, ← expr]
  if ← looksAt "if" then orElse tail (pure n) else return n

def renamed (n : Node) : Read Node := do
  if ← accept "as" then grown n .other [n, ← expr] else return n

def level (postfix_ : Read Node) : Read Node := do
  let n ← chain (acceptAny ["and", "or"]) (operand expr postfix_)
  renamed expr (← conditional expr n)

end Expressions

/-- An expression and a value without operators, inside each other to a depth below the argument. -/
def pair : Nat → Read Node × Read Node
  | 0 => (fail, fail)
  | n + 1 =>
    let inner := pair n
    let value := postfixed inner.1 inner.2
    (level inner.1 value, value)

def expression : Read Node := fun s => (pair (s.rest.length + 1)).1 s

def value : Read Node := fun s => (pair (s.rest.length + 1)).2 s

section Statements

/-- Values with commas between them; a comma behind the last is allowed. What accepts a comma may
depend on the first value. -/
def listWith (comma : Node → Read Bool) : Read Node := do
  let first ← starred expression
  let ended := ["=", ":", ";", ")", "+=", "-=", "*=", "/=", "//=", "%=", "@=", "&=", "|=", "^=",
    ">>=",
    "<<=", "**="]
  let more ← many do
    if ← comma first then
      match ← inLine with
      | none => return some none
      | some t =>
        if t.shape = .symbol && ended.contains t.text then return some none
        else return some (some (← starred expression))
    else return none
  if more.isEmpty then return first else grown first .tuple (first :: more.filterMap id)

def expressionList : Read Node := listWith fun _ => accept ","

/-- Accepts what is behind a side of an assignment. The line cannot end behind a pattern. -/
def acceptBehind (text : String) (n : Node) : Read Bool :=
  if n.isPattern then continues text else accept text

/-- A side of an assignment, or a value by itself. -/
def rightSide : Read Node := do
  if (← needed).is "yield" then yieldExpr expression else listWith (acceptBehind ",")

/-- Values behind equals signs; all but the last have to be targets. -/
def assignTail : Nat → Node → Read (List Node)
  | 0, _ => fail
  | n + 1, left => fun s => (do
    if ← acceptBehind "=" left then
      if left.isTarget then
        let right ← rightSide
        return right :: (← assignTail n right)
      else fail
    else return []) s

def updates : List String := [
  "+=", "-=", "*=", "/=", "//=", "%=", "@=", "&=", "|=", "^=", ">>=", "<<=", "**="]

/-- Holds at the end of a simple statement. -/
def atEnd : Read Bool := do
  match ← inLine with
  | none => return true
  | some t => return t.is ";"

/-- An expression, an assignment or an update. -/
def expressionStatement : Read Node := spanned do
  let left ← rightSide
  let fuel := (← get).rest.length + 1
  let children ← do
    if left.isTarget then
      if ← accept ":" then
        let type ← starred expression
        pure (left :: type :: (← assignTail fuel left))
      else if ← acceptAny updates then
        let right ← rightSide
        pure (left :: right :: (← assignTail fuel right))
      else pure (left :: (← assignTail fuel left))
    else pure [left]
  if ← atEnd then return (.statement, children) else fail

def commaNames : Read Unit := do
  let _ ← identifier
  let _ ← many do
    if ← accept "," then
      let _ ← identifier
      return some ()
    else return none

def dottedName : Read Unit := do
  let _ ← identifier
  let _ ← many do
    if ← accept "." then
      let _ ← identifier
      return some ()
    else return none

def importItem : Read Unit := do
  dottedName
  if ← accept "as" then
    let _ ← identifier

/-- Imported names; in parentheses they may take several lines. -/
def importList (closed : Bool) : Read Unit := do
  importItem
  let _ ← many do
    if ← accept "," then
      if (← atEnd) || (closed && (← looksAt ")")) then return none
      else
        importItem
        return some ()
    else return none

def importFrom : Read Unit := do
  let dots ← many do
    if ← acceptAny [".", "..."] then return some () else return none
  if dots.isEmpty then dottedName
  else if !(← looksAt "import") then dottedName
  expect "import"
  if ← accept "*" then return ()
  if ← looksAt "(" then
    expect "("
    nested do
      importList true
      expect ")"
  else importList false

/-- Something that stands behind a keyword unless the statement ends there. -/
def optionalList : Read (List Node) := do
  if ← atEnd then return [] else return [← expressionList]

/-- A name for a type. -/
def aliasStatement : Read Node := spanned do
  if (← second?).any (·.indent.isNone) then
    expect "type"
    let left ← expression
    expect "="
    return (.statement, [left, ← expression])
  else fail

/-- A list of what is printed, or code to run: statements of older code. -/
def oldStatement : Read Node := spanned do
  if ← accept "print" then
    let _ ← accept ">>"
    return (.statement, [← expressionList])
  else if ← accept "exec" then
    let t ← needed
    if !(isIdentifier t || t.shape = .quoted) then fail
    consume t
    if ← accept "in" then return (.statement, [← expressionList]) else return (.statement, [])
  else fail

/-- A statement with nothing behind it. -/
def whole (statement : Read Node) : Read Node := do
  let n ← statement
  if ← atEnd then return n else fail

def simple : Read Node := do
  let t ← needed
  let word := if t.shape = .name then t.text else ""
  let keyword (p : Read (List Node)) : Read Node := spanned do
    consume t
    return (.statement, ← p)
  match word with
  | "pass" | "break" | "continue" => keyword (return [])
  | "return" => keyword optionalList
  | "del" => keyword (return [← expressionList])
  | "assert" => keyword (return [← expressionList])
  | "raise" => keyword do
    let what ← if ← looksAt "from" then pure [] else optionalList
    if ← accept "from" then return what ++ [← expression] else return what
  | "global" | "nonlocal" => keyword do
    commaNames
    return []
  | "import" => keyword do
    importList false
    return []
  | "from" => keyword do
    importFrom
    return []
  | _ => orElse (whole aliasStatement) (orElse expressionStatement (whole oldStatement))

/-- The simple statements of a line. -/
def simples : Nat → Read (List Node)
  | 0 => fail
  | n + 1 => fun s => (do
    let first ← simple
    if ← accept ";" then
      if (← inLine).isNone then return [first] else return first :: (← simples n)
    else if (← inLine).isNone then return [first]
    else fail) s

/-- The comments in front of the next token that are indented as far as the block belong to it. -/
def closeBlock (indent : Nat) : Read Unit := modify fun s =>
  match s.rest with
  | t :: rest =>
    let inside := t.comments.takeWhile (indent ≤ ·.indent)
    let t := { t with comments := t.comments.drop inside.length }
    let endRow := match inside.getLast? with
      | some c => c.row
      | none => s.endRow
    { s with rest := t :: rest, endRow }
  | [] => s

/-- Statements as long as lines are indented far enough. -/
def blockLines (statement : Read (List Node)) (indent : Nat) : Read (List Node) := do
  let found ← many do
    let s ← get
    match s.rest.head? with
    | some t =>
      if t.shape ≠ .stop && t.indent.all (indent ≤ ·) then return some (← statement)
      else return none
    | none => return none
  return found.flatten

/-- The statements behind a colon: on the same line, or on further lines that are indented more.
There may be none. -/
def suite (statement : Read (List Node)) : Read Node := do
  expect ":"
  let s ← get
  match s.rest.head? with
  | none => fail
  | some t =>
    let statements ← match t.indent with
      | none => if t.shape = .stop then pure [] else simples (s.rest.length + 1)
      | some i =>
        if t.shape ≠ .stop && s.indent < i then do
          modify fun s => { s with indent := i }
          let found ← blockLines statement i
          closeBlock i
          modify fun s' => { s' with indent := s.indent }
          pure found
        else pure []
    let e ← get
    return .mk .other ⟨s.stop, e.stop, s.endRow, e.endRow⟩ statements

variable (statement : Read (List Node))

def elseSuites (words : List String) : Read (List Node) := do
  let found ← words.mapM fun w => do
    if ← continues w then return [← suite statement] else return []
  return found.flatten

def ifStatement : Read Node := spanned do
  expect "if"
  let test ← expression
  let body ← suite statement
  let elifs ← many do
    if ← continues "elif" then
      let test ← expression
      return some [test, ← suite statement]
    else return none
  return (.statement, test :: body :: elifs.flatten ++ (← elseSuites statement ["else"]))

def whileStatement : Read Node := spanned do
  expect "while"
  let test ← expression
  let body ← suite statement
  return (.statement, test :: body :: (← elseSuites statement ["else"]))

def forStatement : Read Node := spanned do
  let _ ← accept "async"
  expect "for"
  let ts ← targets value
  expect "in"
  let source ← expressionList
  let body ← suite statement
  return (.statement, ts ++ source :: body :: (← elseSuites statement ["else"]))

def exceptClause : Read (Option (List Node)) := do
  if ← continues "except" then
    let _ ← accept "*"
    let what ← if ← looksAt ":" then pure [] else do
      let e ← expression
      if ← accept "," then pure [e, ← expression] else pure [e]
    return some (what ++ [← suite statement])
  else return none

def tryStatement : Read Node := spanned do
  expect "try"
  let body ← suite statement
  let excepts ← many (exceptClause statement)
  if excepts.isEmpty then
    expect "finally"
    return (.statement, [body, ← suite statement])
  else
    return (.statement, body :: excepts.flatten ++ (← elseSuites statement ["else", "finally"]))

def withStatement : Read Node := spanned do
  let _ ← accept "async"
  expect "with"
  let items ← expressionList
  return (.statement, [items, ← suite statement])

/-- Type parameters in brackets. -/
def typeParameters : Read (List Node) := do
  if ← looksAt "[" then return [← bracketed expression value] else return []

def functionStatement : Read Node := spanned do
  let _ ← accept "async"
  expect "def"
  let name ← identifier
  let types ← typeParameters
  expect "("
  let ps ← nested (parameters expression true ")")
  let result ← if ← accept "->" then pure [← starred expression] else pure []
  return (.function name.text, types ++ ps ++ result ++ [← suite statement])

def classStatement : Read Node := spanned do
  expect "class"
  let _ ← identifier
  let types ← typeParameters
  let bases ← if ← looksAt "(" then pure [← arguments expression value] else pure []
  return (.statement, types ++ bases ++ [← suite statement])

/-- A function or class with decorators, each on a line of its own. -/
def decorated : Read Node := spanned do
  let decorators ← many do
    if ← continues "@" then
      let e ← expression
      if (← inLine).isSome then fail
      return some e
    else return none
  let t ← needed
  let inner ← if t.is "class" then classStatement statement else functionStatement statement
  return (.statement, decorators ++ [inner])

/-- A choice between cases. -/
def matchStatement : Read Node := spanned do
  expect "match"
  let subject ← expressionList
  expect ":"
  let s ← get
  match (s.rest.head?).bind (·.indent) with
  | none => fail
  | some i =>
    if i ≤ s.indent then return (.statement, [subject])
    modify fun s => { s with indent := i }
    let cases ← many do
      if ← continues "case" then
        let pattern ← expressionList
        let guard ← if ← accept "if" then pure [← expression] else pure []
        return some (pattern :: guard ++ [← suite statement])
      else return none
    closeBlock i
    modify fun s' => { s' with indent := s.indent }
    return (.statement, subject :: cases.flatten)

/-- A statement, or the several simple ones of a line. -/
def line : Read (List Node) := do
  let t ← needed
  let second ← second?
  let word := if t.shape = .name || t.is "@" then t.text else ""
  let fuel := (← get).rest.length + 1
  let one (p : Read Node) : Read (List Node) := return [← p]
  match word with
  | "if" => one (ifStatement statement)
  | "while" => one (whileStatement statement)
  | "for" => one (forStatement statement)
  | "try" => one (tryStatement statement)
  | "with" => one (withStatement statement)
  | "def" => one (functionStatement statement)
  | "class" => one (classStatement statement)
  | "@" => one (decorated statement)
  | "async" =>
    if second.any (·.is "def") then one (functionStatement statement)
    else if second.any (·.is "for") then one (forStatement statement)
    else if second.any (·.is "with") then one (withStatement statement)
    else simples fuel
  | "match" => orElse (simples fuel) (one (matchStatement statement))
  | _ => simples fuel

end Statements

/-- The statements of a line, blocks inside each other to a depth below the argument. -/
def lineAt : Nat → Read (List Node)
  | 0 => fail
  | n + 1 => line (lineAt n)

/-- The statements of a whole text. -/
def module : Read (List Node) := do
  let s ← get
  let found ← blockLines (lineAt (s.rest.length + 1)) 0
  match (← get).rest with
  | [t] => if t.shape = .stop then return found else fail
  | _ => fail

end Grammar

/-- The statements of generated code; other texts have none. -/
def parse? (source : List Char) : Option (List Node) := do
  let tokens ← Token.all? source
  let (nodes, _) ← Grammar.module.run ⟨tokens, 0, 0, 0, 0⟩
  return nodes

end Stencil.Code
