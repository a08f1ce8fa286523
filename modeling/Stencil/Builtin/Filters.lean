import Stencil.Builtin.Call
import Stencil.Text.Blank
import Stencil.Text.Case

/-!
What the built-in filters give. Templates are only checked, never filled in, so most filters that
look into values give something of the right type and no more.
-/
namespace Stencil.Builtin.Filters
open Datum Routine

/-- A filter that makes a text of a text. -/
def onText (f : String → String) : Routine :=
  fixed ["s"] [] fun b => do return text (f (← (b.get 0).asText))

/-- The text of any value. -/
def asPlain (name : String) (defaults : List (String × Datum)) : Routine :=
  fixed [name] defaults fun b => .ok (text (b.get 0).plain)

/-- A filter that gives one value whatever it gets. -/
def constant (names : List String) (defaults : List (String × Datum)) (d : Datum) : Routine :=
  fixed names defaults fun _ => .ok d

/-- A filter that gives a parameter back. -/
def echo (n : Nat) (names : List String) (defaults : List (String × Datum)) : Routine :=
  fixed names defaults fun b => .ok (b.get n)

/-- A list of all that a value gives. -/
def listed (names : List String) (defaults : List (String × Datum)) : Routine :=
  fixed names defaults fun b => do return list (← (b.get 0).items)

/-- A filter that takes whatever comes with the value and gives an empty list. -/
def unread : Routine := variadic ["value"] true fun _ => .ok (list [])

/-- The attribute of a value; `nothing` if it has no such one. Numbers have the parts of complex and
rational numbers. -/
def attributeOf (d : Datum) (name : String) : Datum :=
  match d, name with
  | space attrs, name => (attrs.lookup name).getD nothing
  | d, "real" => match d.number? with
    | some (.int n) => int n
    | some (.float x) => float x
    | none => nothing
  | d, "imag" => match d.number? with
    | some (.int _) => int 0
    | some (.float _) => float 0.0
    | none => nothing
  | d, "numerator" => match d.number? with
    | some (.int n) => int n
    | _ => nothing
  | d, "denominator" => match d.number? with
    | some (.int _) => int 1
    | _ => nothing
  | _, _ => nothing

/-- Cuts a list into pieces. No more than `bound` pieces are made. -/
def pieces (size : Nat) : Nat → List Datum → List Datum
  | 0, _ => []
  | _, [] => []
  | bound + 1, ds => list (ds.take size) :: pieces size bound (ds.drop size)

def batch (b : Bound) : Outcome Datum := do
  let ds ← (b.get 0).items
  let n ← (b.get 1).index
  if n = 0 then throw .badValue
  return list (if n < 0 then [] else pieces n.toNat ds.length ds)

/-- Holds of the numbers that can count something. -/
def isWord (n : Int) : Bool := -(Format.maxWidth : Int) - 1 ≤ n && n ≤ Format.maxWidth

/-- A text with blanks on both sides; of an odd number the side depends on the width. -/
def center (s : String) (width : Int) : Outcome String :=
  if !isWord width then .error .tooLarge
  else
    let pad := width.toNat - s.length
    let left := pad / 2 + pad % 2 * (width.toNat % 2)
    .ok (String.ofList (List.replicate left ' ' ++ s.toList ++ List.replicate (pad - left) ' '))

/-- Replaces so many occurrences from the left. The characters bound the steps. -/
def replaceIn (old new : List Char) : Nat → Nat → List Char → List Char
  | 0, _, cs | _, 0, cs => cs
  | _, _ + 1, [] => if old.isEmpty then new else []
  | left + 1, bound + 1, c :: cs =>
    if old.isEmpty then new ++ c :: replaceIn old new left bound cs
    else if old.isPrefixOf (c :: cs) then
      new ++ replaceIn old new left bound ((c :: cs).drop old.length)
    else c :: replaceIn old new (left + 1) bound cs

def replace (b : Bound) : Outcome Datum := do
  let s ← (b.get 0).asText
  match b.get 1, b.get 2 with
  | text old, text new =>
    let limit ← match b.get 3 with
      | nothing => .ok (-1)
      | d => d.index
    if !isWord limit then throw .tooLarge
    let cs := s.toList
    let limit := if limit < 0 then cs.length + 1 else limit.toNat
    return text (String.ofList (replaceIn old.toList new.toList limit (cs.length + 1) cs))
  | _, _ => throw .wrongType

def reverse (d : Datum) : Outcome Datum :=
  match d with
  | text s => .ok (text (String.ofList s.toList.reverse))
  | d => do return list (← d.items).reverse

def trim (s : String) (chars : Datum) : Outcome String :=
  match chars with
  | nothing => .ok (String.ofList (Text.trimBlanks s.toList))
  | text cs => .ok (String.ofList (Text.trimWith cs.toList.contains s.toList))
  | _ => .error .wrongType

/-- The first items; a negative length counts from the end. -/
def shorten {α : Type} (l : List α) (length : Datum) : Outcome (List α) := do
  match length with
  | nothing => return l
  | d =>
    let n ← d.index
    return l.take (if n < 0 then n + l.length else n).toNat

def truncate (d length : Datum) : Outcome Datum :=
  match d with
  | text s => do return text (String.ofList (← shorten s.toList length))
  | list ds => do return list (← shorten ds length)
  | tuple ds => do return tuple (← shorten ds length)
  | _ => .error .wrongType

def pairs (d : Datum) : Outcome Datum := do
  return list ((← d.asEntries).map fun e => tuple [e.1, e.2])

def join (b : Bound) : Outcome Datum := do
  let glue ← (b.get 1).asText
  return text (glue.intercalate ((← (b.get 0).items).map plain))

def format (b : Bound) : Outcome Datum :=
  match b.get 0 with
  | text s => do
    let values := if b.rest.isEmpty then dict (b.named.map fun v => (text v.1, v.2))
      else tuple b.rest
    return text (← Format.apply s values)
  | _ => .error .wrongType

def size (d : Datum) : Outcome Datum := do return int (← d.size)

def length : Routine := fixed ["obj"] [] fun b => size (b.get 0)

def default : Routine :=
  fixed ["value"] [("default_value", text ""), ("boolean", bool false)] fun b =>
    .ok (if (b.get 0).truth || !(b.get 2).truth then b.get 0 else b.get 1)

def escape : Routine := asPlain "s" []

def caseless : List (String × Datum) := [("case_sensitive", bool false), ("attribute", nothing)]

/-- The filters by the names that generated code has for them. -/
def all : List (String × Routine) := [
  ("abs_", fixed ["value"] [] fun b => (b.get 0).absolute),
  ("attr", fixed ["obj", "name"] [] fun b => match b.get 1 with
    | text name => .ok (attributeOf (b.get 0) name)
    | _ => .error .wrongType),
  ("batch", fixed ["value", "linecount"] [("fill_with", nothing)] batch),
  ("capitalize", onText Text.capitalize),
  ("center", fixed ["value"] [("width", int 80)] fun b => do
    let s ← (b.get 0).asText
    return text (← center s (← (b.get 1).index))),
  ("length", length),
  ("count", length),
  ("default", default),
  ("d", default),
  ("dictsort", fixed ["value"]
    [("case_sensitive", bool false), ("by", text "key"), ("reverse", bool false)]
    fun b => pairs (b.get 0)),
  ("escape", escape),
  ("e", escape),
  ("forceescape", escape),
  ("filesizeformat", asPlain "value" [("binary", bool false)]),
  ("first", fixed ["seq"] [] fun b => do
    match ← (b.get 0).items with
    | d :: _ => return d
    | [] => throw .exhausted),
  ("float_", echo 1 ["value"] [("default", float 0.0)]),
  ("format_", variadic ["value"] true format),
  ("groupby", constant ["value", "attribute"] [("default", nothing), ("case_sensitive", bool false)]
    (list [])),
  ("indent", echo 0 ["s"] [("width", int 4), ("first", bool false), ("blank", bool false)]),
  ("int_", echo 1 ["value"] [("default", int 0), ("base", int 10)]),
  ("items", fixed ["value"] [] fun b => match b.get 0 with
    | nothing => .ok (list [])
    | d => pairs d),
  ("join", fixed ["value"] [("d", text ""), ("attribute", nothing)] join),
  ("last", fixed ["seq"] [] fun b => (b.get 0).item (int (-1))),
  ("list_", listed ["value"] []),
  ("lower", onText Text.lower),
  ("map_", unread),
  ("max_", constant ["value"] caseless nothing),
  ("min_", constant ["value"] caseless nothing),
  ("pprint", fixed ["value"] [] fun b => .ok (text (b.get 0).shown)),
  ("random", fixed ["seq"] [] fun b => (b.get 0).item (int 0)),
  ("reject", unread),
  ("rejectattr", unread),
  ("replace", fixed ["s", "old", "new"] [("count", nothing)] replace),
  ("reverse", fixed ["value"] [] fun b => reverse (b.get 0)),
  ("round_", fixed ["value"] [("precision", int 0), ("method", text "common")] fun b =>
    (b.get 0).round (b.get 1)),
  ("safe", echo 0 ["value"] []),
  ("select", unread),
  ("selectattr", unread),
  ("slice_", constant ["value", "slices"] [("fill_with", nothing)] (list [])),
  ("sort", listed ["value"]
    [("reverse", bool false), ("case_sensitive", bool false), ("attribute", nothing)]),
  ("string", asPlain "value" []),
  ("striptags", asPlain "value" []),
  ("sum_", echo 2 ["iterable"] [("attribute", nothing), ("start", int 0)]),
  ("title", onText Text.title),
  ("tojson", constant ["value"] [("indent", nothing)] (text "")),
  ("trim", fixed ["value"] [("chars", nothing)] fun b => do
    return text (← trim (← (b.get 0).asText) (b.get 1))),
  ("truncate", fixed ["s"] [("length", int 255), ("killwords", bool false), ("end", text "..."),
    ("leeway", nothing)] fun b => truncate (b.get 0) (b.get 1)),
  ("unique", constant ["value"] caseless (list [])),
  ("upper", onText Text.upper),
  ("urlencode", constant ["value"] [] (text "")),
  ("urlize", echo 0 ["value"] [("trim_url_limit", nothing), ("nofollow", bool false),
    ("target", nothing), ("rel", nothing), ("extra_schemes", nothing)]),
  ("wordcount", fixed ["s"] [] fun b => do
    return int (Text.words (← (b.get 0).asText).toList).length),
  ("wordwrap", echo 0 ["s"] [("width", int 79), ("break_long_words", bool true),
    ("wrapstring", nothing), ("break_on_hyphens", bool true)]),
  ("xmlattr", constant ["d"] [("autospace", bool true)] (text ""))]

end Stencil.Builtin.Filters
