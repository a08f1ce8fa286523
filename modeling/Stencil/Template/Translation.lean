import Stencil.Template.ExprParser
import Stencil.Text.Blank

/-!
Translatable sections: `trans`, with `pluralize` inside perhaps, up to `endtrans`. A section becomes
the output of a call to one of the gettext functions, its variables put in with `%`.
-/
namespace Stencil.Template.Parser

/-- What stands between `trans` and the end of its tag. -/
structure Translation where
  /-- The variables in order of appearance, each with its value. -/
  bindings : List (String × Expr)
  plural : Option Expr
  /-- A call that is evaluated once, in front of the section. -/
  assigned : Option Expr
  trimmed : Option Bool

namespace Translation

def names (t : Translation) : List String := t.bindings.map (·.1)

/-- Adds a variable. The first one counts for the plural. -/
def bind (t : Translation) (line : Line) (name : String) (value : Expr) : Translation :=
  match t.plural, value with
  | none, .call .. =>
    let counter := Expr.name line "_trans" .load
    { t with
      bindings := t.bindings ++ [(name, counter)], plural := some counter, assigned := some value }
  | none, _ => { t with bindings := t.bindings ++ [(name, value)], plural := some value }
  | some _, _ => { t with bindings := t.bindings ++ [(name, value)] }

/-- Adds the names that have no value of their own. -/
def bindFree (t : Translation) (line : Line) (referenced : List String) : Translation :=
  referenced.foldl
    (fun t name =>
      if t.names.contains name then t
      else { t with bindings := t.bindings ++ [(name, .name line name .load)] })
    t

/-- Without a variable that counts, the first name in the text does. -/
def countFirst (t : Translation) (line : Line) (referenced : List String) : Translation :=
  match t.plural, referenced with
  | none, name :: _ => { t with plural := some (.name line name .load) }
  | _, _ => t

/-- The output of a section, with the assignment in front of it that it may need. -/
def assigning (t : Translation) (output : Stmt) : List Stmt :=
  match t.assigned with
  | none => [output]
  | some e => [.assign none (.name none "_trans" .store) e, output]

end Translation

section

variable (line : Line) (expression : Parser Expr)

/-- One variable or one of the words about trimming. -/
def translationItem (t : Translation) : Parser Translation := do
  let (at_, name) ← expectName
  if t.names.contains name then failAt at_ (.definedTwice name)
  if ← skipOp .assign then
    let e ← expression
    return t.bind line name e
  else if t.trimmed.isNone && (name == "trimmed" || name == "notrimmed") then
    return { t with trimmed := some (name == "trimmed") }
  else return t.bind line name (.name line name .load)

def translationItems : Nat → Translation → Parser Translation
  | 0, t => return t
  | n + 1, t => fun s => (do
    if isBlockEnd (← lexeme) then return t
    if !t.bindings.isEmpty then
      let _ ← expectOp .comma
    if ← skipOp .colon then return t
    let t ← translationItem line expression t
    translationItems n t) s

/-- The text of a section, with a place for each name, and the names. It ends before the name of the
tag that closes it. -/
def translationText (singular : Bool) : Nat → Parser (List Char × List String)
  | 0 => return ([], [])
  | n + 1 => fun s => (do
    match ← lexeme with
    | .data text =>
      let _ ← next
      let (more, names) ← translationText singular n
      return (text.toList.flatMap (fun c => if c == '%' then ['%', '%'] else [c]) ++ more, names)
    | .variableBegin =>
      let _ ← next
      let (_, name) ← expectName
      let _ ← expectVariableEnd
      let (more, names) ← translationText singular n
      return (s!"%({name})s".toList ++ more, name :: names)
    | .blockBegin =>
      let _ ← next
      match ← lexeme with
      | .name "endtrans" => return ([], [])
      | .name "pluralize" => if singular then return ([], []) else fail .secondPlural
      | .name "trans" => fail .nestedTranslation
      | .name tag => fail (.controlInTranslation tag)
      | _ => fail (.controlInTranslation "None")
    | _ => fail .unclosedTranslation) s

/-- Blanks around a line break become one blank. -/
def joinLines : Nat → List Char → List Char
  | 0, cs => cs
  | _, [] => []
  | n + 1, c :: cs =>
    if Text.isBlank c then
      let blanks := c :: cs.takeWhile Text.isBlank
      let rest := joinLines n (cs.dropWhile Text.isBlank)
      if blanks.contains '\n' then ' ' :: rest else blanks ++ rest
    else c :: joinLines n cs

def trimLines (text : List Char) : List Char :=
  let cs := Text.trimBlanks text
  joinLines cs.length cs

/-- Percent signs as they were before their doubling. -/
def singlePercents : List Char → List Char
  | '%' :: '%' :: cs => '%' :: singlePercents cs
  | c :: cs => c :: singlePercents cs
  | [] => []

def textConst (cs : List Char) : Expr := .const line (.str (cs.map Char.toNat))

/-- The call for a section and the values of its variables. -/
def translationCall (context : Option Text.Points) (singular : List Char)
    (plural : Option (List Char × Expr)) (bindings : List (String × Expr)) (referenced : Bool) :
    Stmt :=
  let adapt := fun cs => if referenced then cs else singlePercents cs
  let contextArg := match context with
    | none => []
    | some ps => [Expr.const line (.str ps)]
  let pluralArgs := match plural with
    | none => []
    | some (cs, e) => [textConst line (adapt cs), e]
  let function :=
    (if plural.isSome then "n" else "") ++ (if context.isSome then "p" else "") ++ "gettext"
  let call := Expr.safe line
    (.call line (.name line function .load)
      (contextArg ++ textConst line (adapt singular) :: pluralArgs) [] none none)
  let value :=
    if bindings.isEmpty then call
    else
      .binary line .mod call
        (.dict line (bindings.map fun b => (textConst line b.1.toList, b.2)))
  .output line [value]

/-- The part of a section behind `pluralize`: its text, the names in it and what counts. -/
def pluralPart (fuel : Nat) (t : Translation) :
    Parser (List Char × List String × Option Expr) := do
  let counted ←
    if isBlockEnd (← lexeme) then pure t.plural
    else
      let (at_, name) ← expectName
      match t.bindings.lookup name with
      | none => failAt at_ (.unknownPlural name)
      | some e => pure (some e)
  let _ ← expectBlockEnd
  let (text, names) ← translationText false fuel
  let _ ← next
  return (text, names, counted)

end

/-- A translatable section. -/
def translation (fuel : Nat) (expression : Parser Expr) : Parser (List Stmt) := do
  let start := (← next).line
  let line : Line := some start
  let context ← match ← lexeme with
    | .str ps =>
      let _ ← next
      pure (some ps)
    | _ => pure none
  let t ← translationItems line expression fuel ⟨[], none, none, none⟩
  let _ ← expectBlockEnd
  let (singular, names) ← translationText true fuel
  let t := t.countFirst line names
  let (pluralText, pluralNames, counted) ←
    if ← skipName "pluralize" then
      let (text, names, counted) ← pluralPart fuel t
      pure (some text, names, counted)
    else
      let _ ← next
      pure (none, [], none)
  let referenced := names ++ pluralNames
  let t := t.bindFree line referenced
  let trim := fun text => if t.trimmed == some true then trimLines text else text
  let plural ← match pluralText, counted with
    | none, _ => pure none
    | some _, none => failAt start .pluralWithoutVariables
    | some text, some e => pure (some (trim text, e))
  return t.assigning
    (translationCall line context (trim singular) plural t.bindings (!referenced.isEmpty))

end Stencil.Template.Parser
