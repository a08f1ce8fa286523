import Stencil.Data.Moment
import Stencil.Decimal.Shortest
import Stencil.Text.Escape

/-!
TOML documents. A table that was given once, under its name or inside a line, is not given again,
and no value is replaced.
-/
namespace Stencil.Data.Toml

inductive Fault
  | malformed
  /-- A decimal integer of more than 4300 digits. -/
  | longNumber
deriving DecidableEq, Repr

abbrev Read := StateT (List Char) (Except Fault)

abbrev Key := List String

abbrev Entries := List (String × Value)

def fail {α : Type} : Read α := throw .malformed

def isSpace (c : Char) : Bool := c == ' ' || c == '\t'

def isFiller (c : Char) : Bool := isSpace c || c == '\n'

/-- Control characters other than tabs, and other than newlines if there may be several lines. -/
def isForbidden (multiline : Bool) (c : Char) : Bool :=
  (c.toNat < 32 || c.toNat == 127) && c != '\t' && !(multiline && c == '\n')

def skip (p : Char → Bool) : Read Unit := modify (List.dropWhile p)

def take (p : Char → Bool) : Read (List Char) := do
  let cs ← get
  set (cs.dropWhile p)
  return cs.takeWhile p

def accept (text : String) : Read Bool := do
  let cs ← get
  if text.toList.isPrefixOf cs then
    set (cs.drop text.length)
    return true
  else return false

def expect (text : String) : Read Unit := do
  if ← accept text then return () else fail

/-- Skips a comment up to the end of its line. -/
def comment : Read Unit := do
  if ← accept "#" then
    let text ← take (· ≠ '\n')
    if text.any (isForbidden false) then fail

/-- Skips blanks, newlines and comments. -/
def filler : Nat → Read Unit
  | 0 => return ()
  | n + 1 => fun s => (do
    skip isFiller
    if (← get).head? == some '#' then
      comment
      filler n) s

/-- A character given by its number. -/
def numbered (width : Nat) : Read Char := do
  let cs ← get
  let ds := cs.take width
  if ds.length < width then fail
  match Text.Escape.hexNumber? ds with
  | some n =>
    if n.isValidChar then
      set (cs.drop width)
      return Char.ofNat n
    else fail
  | none => fail

/-- What a backslash and the characters behind it stand for. In texts of several lines it can join
lines. -/
def escape (multiline : Bool) : Read (List Char) := do
  match ← get with
  | [] => fail
  | c :: rest =>
    set rest
    if multiline && isFiller c then
      if c != '\n' then
        skip isSpace
        expect "\n"
      skip isFiller
      return []
    else
      match c with
      | 'b' => return ['\x08']
      | 't' => return ['\t']
      | 'n' => return ['\n']
      | 'f' => return ['\x0c']
      | 'r' => return ['\r']
      | '"' => return ['"']
      | '\\' => return ['\\']
      | 'u' => return [← numbered 4]
      | 'U' => return [← numbered 8]
      | _ => fail

/-- The inside of a text in double quotes. -/
def basicTail (multiline : Bool) : Nat → Read (List Char)
  | 0 => fail
  | n + 1 => fun s => (do
    match ← get with
    | [] => fail
    | '\\' :: rest =>
      set rest
      let cs ← escape multiline
      return cs ++ (← basicTail multiline n)
    | c :: rest =>
      if isForbidden multiline c then fail
      if ← accept (if multiline then "\"\"\"" else "\"") then return []
      set rest
      return c :: (← basicTail multiline n)) s

/-- Up to two more quotes belong to the text in front of three. -/
def extraQuotes (quote : Char) : Read (List Char) := do
  let more ← take (· == quote)
  modify (more.drop 2 ++ ·)
  return more.take 2

def basic : Read String := do
  expect "\""
  return String.ofList (← basicTail false ((← get).length + 1))

def basicLines : Read String := do
  expect "\"\"\""
  let _ ← accept "\n"
  let text ← basicTail true ((← get).length + 1)
  return String.ofList (text ++ (← extraQuotes '"'))

def literal : Read String := do
  expect "'"
  let text ← take (· ≠ '\'')
  expect "'"
  if text.any (isForbidden false) then fail
  return String.ofList text

/-- The text in front of three quotes. -/
def literalTail : Nat → Read (List Char)
  | 0 => fail
  | n + 1 => fun s => (do
    if ← accept "'''" then return []
    match ← get with
    | [] => fail
    | c :: rest =>
      if isForbidden true c then fail
      set rest
      return c :: (← literalTail n)) s

def literalLines : Read String := do
  expect "'''"
  let _ ← accept "\n"
  let text ← literalTail ((← get).length + 1)
  return String.ofList (text ++ (← extraQuotes '\''))

def isBare (c : Char) : Bool := c.isAlphanum || c == '-' || c == '_'

def keyPart : Read String := do
  match (← get).head? with
  | some '\'' => literal
  | some '"' => basic
  | _ =>
    let name ← take isBare
    if name.isEmpty then fail else return String.ofList name

def keyTail : Nat → Read Key
  | 0 => fail
  | n + 1 => fun s => (do
    skip isSpace
    if ← accept "." then
      skip isSpace
      let part ← keyPart
      return part :: (← keyTail n)
    else return []) s

def key : Read Key := do
  let first ← keyPart
  return first :: (← keyTail ((← get).length + 1))

/-- Further digits, single underscores between them left out. -/
def digitsTail (p : Char → Bool) : List Char → List Char × List Char
  | '_' :: c :: cs => if p c then (digitsTail p cs).map (c :: ·) id else ([], '_' :: c :: cs)
  | c :: cs => if p c then (digitsTail p cs).map (c :: ·) id else ([], c :: cs)
  | [] => ([], [])

def digits? (p : Char → Bool) : List Char → Option (List Char × List Char)
  | c :: cs => if p c then some ((digitsTail p cs).map (c :: ·) id) else none
  | [] => none

def valueIn (base : Nat) (ds : List Char) : Nat :=
  ds.foldl (fun n c => base * n + (Text.Escape.hexValue? c).getD 0) 0

def isDigitIn (base : Nat) (c : Char) : Bool :=
  match Text.Escape.hexValue? c with
  | some n => n < base
  | none => false

/-- A number in another base. -/
def based? : List Char → Option (Nat × List Char)
  | '0' :: c :: cs =>
    let base := match c with
      | 'x' => 16
      | 'o' => 8
      | 'b' => 2
      | _ => 0
    (digits? (isDigitIn base) cs).map fun r => (valueIn base r.1, r.2)
  | _ => none

/-- An integer without superfluous zeros. -/
def whole? : List Char → Option (List Char × List Char)
  | '0' :: cs => some (['0'], cs)
  | cs => digits? Char.isDigit cs

def fraction? : List Char → Option (List Char × List Char)
  | '.' :: cs => digits? Char.isDigit cs
  | _ => none

def exponent? : List Char → Option (Int × List Char)
  | c :: cs =>
    if c == 'e' || c == 'E' then
      let (negative, ds) := match cs with
        | '-' :: ds => (true, ds)
        | '+' :: ds => (false, ds)
        | ds => (false, ds)
      (digits? Char.isDigit ds).map fun r =>
        let n : Nat := valueIn 10 r.1
        (if negative then -(n : Int) else n, r.2)
    else none
  | [] => none

def signed {α : Type} (negate : α → α) (cs : List Char) (f : List Char → Option (α × List Char)) :
    Option (α × List Char) :=
  match cs with
  | '-' :: ds => (f ds).map fun r => (negate r.1, r.2)
  | '+' :: ds => f ds
  | ds => f ds

/-- A decimal number, an integer if it has neither a fraction nor an exponent. -/
def decimal? (cs : List Char) : Option (Except Fault Value × List Char) := do
  let negative := cs.head? == some '-'
  let start := if negative || cs.head? == some '+' then cs.drop 1 else cs
  let (whole, rest) ← whole? start
  let (fraction, rest') := (fraction? rest).getD ([], rest)
  let (exponent, after) := (exponent? rest').getD (0, rest')
  let n : Nat := valueIn 10 (whole ++ fraction)
  if after.length == rest.length then
    if whole.length > 4300 then return (.error .longNumber, after)
    else return (.ok (.int (if negative then -(n : Int) else n)), after)
  else
    let x := (Decimal.Scaled.mk n (exponent - fraction.length)).toFloat
    return (.ok (.float (if negative then -x else x)), after)

def special? (cs : List Char) : Option (Float × List Char) :=
  signed (- ·) cs fun ds =>
    if ['i', 'n', 'f'].isPrefixOf ds then some (1 / 0, ds.drop 3)
    else if ['n', 'a', 'n'].isPrefixOf ds then some (0 / 0, ds.drop 3)
    else none

/-- A date, a time or a number. -/
def scalar : Read Value := do
  let cs ← get
  match Moment.read? cs with
  | some (m, rest) =>
    set rest
    if m.isValid then return Value.moment m.text else fail
  | none =>
    match based? cs, decimal? cs, special? cs with
    | some (n, rest), _, _ =>
      set rest
      return Value.int n
    | none, some (v, rest), _ =>
      set rest
      v
    | none, none, some (x, rest) =>
      set rest
      return Value.float x
    | none, none, none => fail

/-- Changes the table behind a key; tables that are missing are made. With `intoLists` a list stands
for its last table. -/
def within (intoLists : Bool) (change : Entries → Option Entries) : Key → Entries → Option Entries
  | [], t => change t
  | k :: ks, t =>
    match t.lookup k with
    | none => (within intoLists change ks []).map fun sub => Value.put k (.table sub) t
    | some (.table sub) =>
      (within intoLists change ks sub).map fun sub => Value.put k (.table sub) t
    | some (.list items) =>
      match intoLists, items.getLast? with
      | true, some (.table sub) =>
        (within intoLists change ks sub).map fun sub =>
          Value.put k (.list (items.dropLast ++ [.table sub])) t
      | _, _ => none
    | some _ => none

def ofOption {α : Type} : Option α → Read α
  | some a => return a
  | none => fail

/-- Sets what was not set before. -/
def setNew (name : String) (v : Value) (t : Entries) : Option Entries :=
  if (t.lookup name).isSome then none else some (Value.put name v t)

/-- Holds of keys at or below one of `keys`. -/
def isBelow (keys : List Key) (k : Key) : Bool := keys.any (·.isPrefixOf k)

def isStructured : Value → Bool
  | .list _ | .table _ => true
  | _ => false

mutual

def value : Nat → Read Value
  | 0 => fail
  | n + 1 => fun s => (do
    let cs ← get
    match cs with
    | '"' :: _ =>
      if ['"', '"', '"'].isPrefixOf cs then return Value.str (← basicLines)
      else return Value.str (← basic)
    | '\'' :: _ =>
      if ['\'', '\'', '\''].isPrefixOf cs then return Value.str (← literalLines)
      else return Value.str (← literal)
    | '[' :: rest =>
      set rest
      filler rest.length
      if ← accept "]" then return Value.list [] else return Value.list (← items n)
    | '{' :: rest =>
      set rest
      skip isSpace
      if ← accept "\x7d" then return Value.table []
      else return Value.table (← inlineEntries n [] [])
    | _ =>
      if ← accept "true" then return Value.bool true
      else if ← accept "false" then return Value.bool false
      else scalar) s

def items : Nat → Read (List Value)
  | 0 => fail
  | n + 1 => fun s => (do
    let v ← value n
    filler (← get).length
    if ← accept "]" then return [v]
    expect ","
    filler (← get).length
    if ← accept "]" then return [v]
    return v :: (← items n)) s

/-- The entries of a table on one line behind those read before. Values that have parts take no
further entries. -/
def inlineEntries : Nat → List Key → Entries → Read Entries
  | 0, _, _ => fail
  | n + 1, frozen, before => fun s => (do
    let k ← key
    expect "="
    skip isSpace
    let v ← value n
    if isBelow frozen k then fail
    let after ← ofOption (within false (setNew (k.getLastD "") v) k.dropLast before)
    skip isSpace
    if ← accept "\x7d" then return after
    expect ","
    skip isSpace
    inlineEntries n (if isStructured v then k :: frozen else frozen) after) s

end

/-- What has been read of a document. -/
structure Document where
  entries : Entries
  /-- The table that entries go to. -/
  header : Key
  /-- Tables that have been given by name. -/
  given : List Key
  /-- Tables of the present section that come from dotted names. -/
  dotted : List Key
  /-- Values that take no further entries. -/
  frozen : List Key

namespace Document

variable (d : Document)

def empty : Document := ⟨[], [], [], [], []⟩

/-- Begins a section: its predecessor's dotted tables count as given. -/
def section_ : Document := { d with given := d.dotted ++ d.given, dotted := [] }

def openTable (k : Key) : Option Document :=
  if d.given.contains k || isBelow d.frozen k then none
  else
    (within true some k d.entries).map fun entries =>
      { d with entries, header := k, given := k :: d.given }

/-- Adds an empty table to a list of tables. -/
def addTable (name : String) (t : Entries) : Option Entries :=
  match t.lookup name with
  | none => some (Value.put name (.list [.table []]) t)
  | some (.list items) => some (Value.put name (.list (items ++ [.table []])) t)
  | some _ => none

/-- Adds a table to a list; what was given below the key belongs to the table before. -/
def openItem (k : Key) : Option Document :=
  if isBelow d.frozen k then none
  else
    (within true (addTable (k.getLastD "")) k.dropLast d.entries).map fun entries =>
      { d with
        entries
        header := k
        given := k :: d.given.filter (!k.isPrefixOf ·)
        frozen := d.frozen.filter (!k.isPrefixOf ·) }

/-- The tables that a dotted key goes through. -/
def path (k : Key) : List Key :=
  ((List.range k.length).drop 1).map fun i => d.header ++ k.take i

def put (k : Key) (v : Value) : Option Document :=
  let above := d.header ++ k.dropLast
  if (d.path k).any d.given.contains || isBelow d.frozen above then none
  else
    (within true (setNew (k.getLastD "") v) above d.entries).map fun entries =>
      { d with
        entries
        dotted := d.path k ++ d.dotted
        frozen := if isStructured v then (d.header ++ k) :: d.frozen else d.frozen }

end Document

/-- A line that says something. -/
def line (d : Document) : Read Document := do
  if ← accept "[[" then
    skip isSpace
    let k ← key
    let d ← ofOption (d.section_.openItem k)
    expect "]]"
    return d
  else if ← accept "[" then
    skip isSpace
    let k ← key
    let d ← ofOption (d.section_.openTable k)
    expect "]"
    return d
  else
    let k ← key
    expect "="
    skip isSpace
    let v ← value ((← get).length + 1)
    ofOption (d.put k v)

def lines : Nat → Document → Read Document
  | 0, _ => fail
  | n + 1, d => fun s => (do
    skip isSpace
    match (← get).head? with
    | none => return d
    | some c =>
      let d ← if c == '\n' || c == '#' then pure d else line d
      skip isSpace
      comment
      match ← get with
      | [] => return d
      | c :: rest =>
        if c == '\n' then
          set rest
          lines n d
        else fail) s

/-- The newline of a line that ends with a carriage return and a line feed. -/
def unixLines : List Char → List Char
  | '\r' :: '\n' :: cs => '\n' :: unixLines cs
  | c :: cs => c :: unixLines cs
  | [] => []

/-- The entries of a document. -/
def parse (s : String) : Except Fault Entries := do
  let cs := unixLines s.toList
  let (d, _) ← (lines (cs.length + 1) Document.empty).run cs
  return d.entries

end Stencil.Data.Toml
