import Stencil.Data.Check
import Stencil.Data.Json
import Stencil.Data.JsonText
import Stencil.Observed.Injection

/-! What is recorded of a call that renders a template. Records are kept as JSON, one on a line. -/
namespace Stencil.Collect
open Data Observed

/-- A call that renders a template. A record of its context also says what it gives to the
template. -/
structure Record where
  version : Int
  file : String
  template : String
  line : Int
  passed : Option (List Variable)

def currentVersion : Int := 1

namespace Record

def renderTag : String := "template_render"

def contextTag : String := "template_context"

def tag (r : Record) : String := if r.passed.isSome then contextTag else renderTag

def checkVariable : Value → Checked Variable
  | .table t =>
    let name := Fields.required t "name" Value.asString
    let type := Fields.required t "type" Value.asString
    let modules := Fields.optional t "modules" [] (Value.asList Value.asString)
    .both (.both (.both (.ok Variable.mk) name) type) modules
  | _ => .fail .modelType

/-- The line of a call; it goes by either of two names. -/
def lineField (t : Fields) : Checked Int :=
  let name := if (t.lookup "startLine").isNone && (t.lookup "start_line").isSome then "start_line"
    else "startLine"
  t.required name (Value.asIntAtLeast 1)

/-- The template and line of a call, and what it gives to the template if that is asked for. -/
def checkCall (context : Bool) : Value → Checked (String × Int × Option (List Variable))
  | .table t =>
    let template := Fields.required t "template" Value.asString
    let passed :=
      if context then (Fields.optional t "variables" [] (Value.asList checkVariable)).map some
      else .ok none
    .both (.both (.both (.ok fun p n vs => (p, n, vs)) template) (lineField t)) passed
  | _ => .fail .modelType

def checkFields (context : Bool) (t : Fields) : Checked Record :=
  let version := t.optional "schema_version" currentVersion Value.asInt
  let file := t.required "file" Value.asString
  let call := t.required "data" (checkCall context)
  .both (.both (.both (.ok fun v f (c : String × Int × Option (List Variable)) =>
    (⟨v, f, c.1, c.2.1, c.2.2⟩ : Record)) version) file) call

/-- A record says by its tag of which kind it is. -/
def check : Value → Checked Record
  | .table t =>
    match t.lookup "collector" with
    | none => .fail .unionTagNotFound
    | some (.str s) =>
      if s = renderTag then (checkFields false t).under (.key s)
      else if s = contextTag then (checkFields true t).under (.key s)
      else .fail .unionTagInvalid
    | some _ => .fail .unionTagInvalid
  | _ => .fail .modelAttributesType

def variableValue (v : Variable) : Value := .table [
  ("name", .str v.name), ("type", .str v.type), ("modules", .list (v.modules.map .str))]

def toValue (r : Record) : Value := .table [
  ("schema_version", .int r.version), ("collector", .str r.tag), ("file", .str r.file),
  ("data", .table ([("template", .str r.template), ("startLine", .int r.line)] ++
    match r.passed with
    | none => []
    | some vs => [("variables", .list (vs.map variableValue))]))]

/-- The line that stands for a record. Numbers have to fit into 64 bits. -/
def encode? (r : Record) : Option String :=
  if Json.intFits r.version && Json.intFits r.line then some (Json.compact r.toValue ++ "\n")
  else none

end Record

/-- Why a line holds no record. -/
inductive BadLine
  | badJson
  | badRecord (issues : List Issue)

def BadLine.text : BadLine → String
  | badJson => "Invalid JSON"
  | badRecord _ => "Invalid record"

/-- A place in a stream of records. -/
structure Place where
  source : String
  line : Option Int

def Place.text (p : Place) : String :=
  match p.line with
  | none => p.source
  | some n => s!"{p.source}:{n}"

def isBlankByte (b : UInt8) : Bool := b == 32 || (9 ≤ b && b ≤ 13)

def decodeLine (bytes : ByteArray) : Except BadLine Record :=
  match Json.decode? bytes with
  | none => .error .badJson
  | some v => (Record.check v).mapError .badRecord

/-- The lines with something on them, with their numbers from `n` on. -/
def decodeFrom : Nat → List ByteArray → List (Nat × Except BadLine Record)
  | _, [] => []
  | n, l :: ls =>
    if l.toList.all isBlankByte then decodeFrom (n + 1) ls
    else (n, decodeLine l) :: decodeFrom (n + 1) ls

/-- The records of a stream. A line that holds none does not keep the others from being read. -/
def decode (lines : List ByteArray) : List Record × List (Nat × BadLine) :=
  let found := decodeFrom 1 lines
  (found.filterMap fun e => e.2.toOption, found.filterMap fun e => match e.2 with
    | .error b => some (e.1, b)
    | .ok _ => none)

/-- Cuts at line feeds and carriage returns; both together are one cut. -/
def byteLines : List UInt8 → List (List UInt8)
  | [] => []
  | 13 :: 10 :: bs => [] :: byteLines bs
  | b :: bs =>
    if b == 10 || b == 13 then [] :: byteLines bs
    else
      match byteLines bs with
      | [] => [[b]]
      | l :: ls => (b :: l) :: ls

end Stencil.Collect
