import Stencil.Data.Value
import Stencil.Decimal.Exact
import Stencil.Text.Blank

/-!
Checking data against the shape that is expected. A check either gives a result or the list of all
that is wrong, in the order of the fields; entries that no field reads come last.
-/
namespace Stencil.Data

/-- A step into data: the entry of a table or the item of a list. -/
inductive Step
  | key (name : String)
  | index (n : Nat)
deriving DecidableEq, Repr

inductive Problem
  | stringType | intType | intParsing | intParsingSize | intFromFloat | finiteNumber
  | boolType | boolParsing | listType | dictType | modelType | modelAttributesType
  | missing | extraForbidden | literalError | greaterThanEqual
  | unionTagInvalid | unionTagNotFound
  /-- What a rule of the program itself says. -/
  | value (message : String)
deriving DecidableEq, Repr

namespace Problem

def name : Problem → String
  | stringType => "string_type" | intType => "int_type" | intParsing => "int_parsing"
  | intParsingSize => "int_parsing_size"
  | intFromFloat => "int_from_float" | finiteNumber => "finite_number"
  | boolType => "bool_type" | boolParsing => "bool_parsing" | listType => "list_type"
  | dictType => "dict_type" | modelType => "model_type"
  | modelAttributesType => "model_attributes_type" | missing => "missing"
  | extraForbidden => "extra_forbidden" | literalError => "literal_error"
  | greaterThanEqual => "greater_than_equal" | unionTagInvalid => "union_tag_invalid"
  | unionTagNotFound => "union_tag_not_found" | value _ => "value_error"

end Problem

/-- Something that is wrong, and where. -/
structure Issue where
  path : List Step
  problem : Problem
deriving DecidableEq, Repr

/-- The result of a check. -/
abbrev Checked (α : Type) := Except (List Issue) α

namespace Checked

variable {α β : Type}

def fail (p : Problem) : Checked α := .error [⟨[], p⟩]

/-- Moves what is wrong one step deeper. -/
def under (s : Step) (c : Checked α) : Checked α :=
  c.mapError fun issues => issues.map fun i => { i with path := s :: i.path }

/-- Both results, or what is wrong with either. -/
def both (f : Checked (α → β)) (x : Checked α) : Checked β :=
  match f, x with
  | .ok f, .ok a => .ok (f a)
  | .ok _, .error e => .error e
  | .error e, .ok _ => .error e
  | .error e, .error e' => .error (e ++ e')

def items (check : Value → Checked α) : Nat → List Value → Checked (List α)
  | _, [] => .ok []
  | n, v :: vs => both (((check v).under (.index n)).map List.cons) (items check (n + 1) vs)

/-- What each value is checked to be is what the list is. -/
theorem items_map {check : Value → Checked α} {f : α → Value} {as : List α} (h : ∀ a ∈ as, check (f a) = .ok a)
    (n : Nat) : items check n (as.map f) = .ok as := by
  induction as generalizing n with
  | nil => rfl
  | cons a as ih =>
    rw [List.map_cons, items, h a List.mem_cons_self, ih (fun b hb => h b (List.mem_cons_of_mem a hb)) (n + 1)]
    rfl

def entries (check : Value → Checked α) : List (String × Value) → Checked (List (String × α))
  | [] => .ok []
  | (k, v) :: es =>
    both (((check v).under (.key k)).map fun a rest => (k, a) :: rest) (entries check es)

end Checked

namespace Value

variable {α : Type}

def asString : Value → Checked String
  | str s => .ok s
  | _ => .fail .stringType

/-- Digits with single underscores between them, the underscores left out. -/
def plainDigits? (cs : List Char) : Option (List Char) :=
  let pieces := Text.splitAt (· == '_') cs
  if pieces.all fun p => !p.isEmpty && p.all Char.isDigit then some pieces.flatten else none

/-- The white space that may surround a number. -/
def isMargin (c : Char) : Bool := Text.isBlank c && !(28 ≤ c.toNat && c.toNat ≤ 31)

/-- An integer as text: blanks around it, a sign, and a fraction of zeros are allowed. -/
def parseInt (s : String) : Checked Int :=
  let cs := Text.trimWith isMargin s.toList
  let whole := cs.takeWhile (· ≠ '.')
  let fraction := (cs.dropWhile (· ≠ '.')).drop 1
  if !fraction.all (· == '0') then .fail .intParsing
  else
    let (negative, digits) := match whole with
      | '-' :: ds => (true, ds)
      | '+' :: ds => (false, ds)
      | ds => (false, ds)
    match plainDigits? digits with
    | none => .fail .intParsing
    | some ds =>
      if ds.length > 4300 then .fail .intParsingSize
      else
        let n : Nat := ds.foldl (fun n c => 10 * n + (c.toNat - 48)) 0
        .ok (if negative then -(n : Int) else n)

/-- The integer that a float is. -/
def floatInt? (x : Float) : Option Int :=
  match Decimal.Exact.ofFloat x with
  | .finite negative m e =>
    if Decimal.isWhole m e then
      let n : Nat := Decimal.wholePart m e
      some (if negative then -(n : Int) else n)
    else none
  | _ => none

def asInt : Value → Checked Int
  | int n => .ok n
  | bool b => .ok (if b then 1 else 0)
  | float x =>
    if x.isNaN || x.isInf then .fail .finiteNumber
    else
      match floatInt? x with
      | some n => if n.natAbs < Decimal.powerOfTwo 63 then .ok n else .fail .intParsingSize
      | none => .fail .intFromFloat
  | str s => parseInt s
  | _ => .fail .intType

def asIntAtLeast (low : Int) (v : Value) : Checked Int := do
  let n ← v.asInt
  if low ≤ n then .ok n else .fail .greaterThanEqual

def asBool : Value → Checked Bool
  | bool b => .ok b
  | int n => ofInt n
  | float x =>
    if x.isNaN || x.isInf then .fail .boolType
    else
      match floatInt? x with
      | some n => ofInt n
      | none => .fail .boolType
  | str s =>
    let word := s.map Char.toLower
    if ["0", "off", "f", "false", "n", "no"].contains word then .ok false
    else if ["1", "on", "t", "true", "y", "yes"].contains word then .ok true
    else .fail .boolParsing
  | _ => .fail .boolType
where
  /-- Zero and one stand for the truth values. -/
  ofInt (n : Int) : Checked Bool :=
    if n = 0 then .ok false else if n = 1 then .ok true else .fail .boolParsing

def asList (check : Value → Checked α) : Value → Checked (List α)
  | list items => Checked.items check 0 items
  | _ => .fail .listType

def asTable (check : Value → Checked α) : Value → Checked (List (String × α))
  | table entries => Checked.entries check entries
  | _ => .fail .dictType

def asNullable (check : Value → Checked α) : Value → Checked (Option α)
  | null => .ok none
  | v => (check v).map some

/-- One of the given words. -/
def asWord (words : List String) : Value → Checked String
  | str s => if words.contains s then .ok s else .fail .literalError
  | _ => .fail .literalError

end Value

/-- The entries of a table as the fields of a record. -/
abbrev Fields := List (String × Value)

namespace Fields

variable {α : Type} (fields : Fields)

def required (name : String) (check : Value → Checked α) : Checked α :=
  match fields.lookup name with
  | some v => (check v).under (.key name)
  | none => (Checked.fail .missing).under (.key name)

def optional (name : String) (default : α) (check : Value → Checked α) : Checked α :=
  match fields.lookup name with
  | some v => (check v).under (.key name)
  | none => .ok default

/-- Fails for every entry that is no field. -/
def closed (names : List String) : Checked Unit :=
  match (fields.filter fun e => !names.contains e.1).map fun e => e.1 with
  | [] => .ok ()
  | extra => .error (extra.map fun k => ⟨[.key k], .extraForbidden⟩)

end Fields

end Stencil.Data
