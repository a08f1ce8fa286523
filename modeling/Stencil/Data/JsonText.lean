import Stencil.Data.Value
import Stencil.Decimal.Shortest
import Stencil.Text.Quoted

/-! JSON as text: on one line without blanks, or with two blanks for each level and sorted keys. -/
namespace Stencil.Data.Json

def escapeChar (c : Char) : List Char :=
  if c == '"' then ['\\', '"']
  else if c == '\\' then ['\\', '\\']
  else if c == '\x08' then ['\\', 'b']
  else if c == '\t' then ['\\', 't']
  else if c == '\n' then ['\\', 'n']
  else if c == '\x0c' then ['\\', 'f']
  else if c == '\r' then ['\\', 'r']
  else if c.toNat < 32 then '\\' :: 'u' :: Text.hexDigits 4 c.toNat
  else [c]

def stringText (s : String) : String := String.ofList ('"' :: s.toList.flatMap escapeChar ++ ['"'])

mutual

/-- The value on one line. -/
def compact : Value → String
  | .null => "null"
  | .bool b => if b then "true" else "false"
  | .int n => toString n
  | .float x => Decimal.floatText x
  | .str s => stringText s
  | .moment s => stringText s
  | .list items => "[" ++ ",".intercalate (compactItems items) ++ "]"
  | .table entries => "\x7b" ++ ",".intercalate (compactEntries entries) ++ "\x7d"

def compactItems : List Value → List String
  | [] => []
  | v :: vs => compact v :: compactItems vs

def compactEntries : List (String × Value) → List String
  | [] => []
  | (k, v) :: es => (stringText k ++ ":" ++ compact v) :: compactEntries es

end

def margin (level : Nat) : String := String.ofList ('\n' :: List.replicate (2 * level) ' ')

/-- Pieces on lines of their own between brackets, or the brackets alone. -/
def bracketed (left right : String) (level : Nat) (pieces : List String) : String :=
  if pieces.isEmpty then left ++ right
  else
    left ++ ",".intercalate (pieces.map (margin (level + 1) ++ ·)) ++ margin level ++ right

mutual

/-- The value over several lines, `level` deep. -/
def pretty (level : Nat) : Value → String
  | .list items => bracketed "[" "]" level (prettyItems level items)
  | .table entries =>
    bracketed "\x7b" "\x7d" level
      (((prettyEntries level entries).mergeSort fun a b => a.1 ≤ b.1).map (·.2))
  | .null => "null"
  | .bool b => if b then "true" else "false"
  | .int n => toString n
  | .float x => Decimal.floatText x
  | .str s => stringText s
  | .moment s => stringText s

def prettyItems (level : Nat) : List Value → List String
  | [] => []
  | v :: vs => pretty (level + 1) v :: prettyItems level vs

/-- The entries with their keys, by which they are sorted. -/
def prettyEntries (level : Nat) : List (String × Value) → List (String × String)
  | [] => []
  | (k, v) :: es => (k, stringText k ++ ": " ++ pretty (level + 1) v) :: prettyEntries level es

end

end Stencil.Data.Json
