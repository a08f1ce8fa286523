import Stencil.Decimal.Exact
import Stencil.Text.Quoted

/-! The values that templates work with. -/
namespace Stencil.Builtin

inductive Datum
  | nothing
  | bool (value : Bool)
  | int (value : Int)
  | float (value : Float)
  | text (value : String)
  | list (items : List Datum)
  | tuple (items : List Datum)
  | dict (entries : List (Datum × Datum))
  /-- Items that can be taken once. -/
  | stream (items : List Datum)
  /-- An object that has every attribute; those that were not set are `nothing`. -/
  | space (attrs : List (String × Datum))

instance : Inhabited Datum := ⟨.nothing⟩

/-- Why an operation has no value. -/
inductive Fault
  | wrongType | noAttribute | outOfRange | noKey | badValue | divisionByZero | exhausted | tooLarge
deriving DecidableEq, Repr

abbrev Outcome := Except Fault

/-- A number; truth values count as zero and one. -/
inductive Number
  | int (value : Int)
  | float (value : Float)

namespace Number

/-- The sign and the exponent of two with the factor before it, if the number is finite. -/
def parts? : Number → Option (Int × Int)
  | int n => some (n, 0)
  | float x =>
    match Decimal.Exact.ofFloat x with
    | .finite negative m e => some (if negative then -(m : Int) else m, e)
    | _ => none

/-- A float on the same side of the infinite ones. -/
def extreme : Number → Float
  | int _ => 0.0
  | float x => x

/-- Compares exactly; nothing compares with what is no number. -/
def compare (a b : Number) : Option Ordering :=
  match a.parts?, b.parts? with
  | some (m, e), some (n, f) =>
    let low := min e f
    some (Ord.compare (m * Decimal.powerOfTwo (e - low).toNat)
      (n * Decimal.powerOfTwo (f - low).toNat))
  | _, _ =>
    let x := a.extreme
    let y := b.extreme
    if x.isNaN || y.isNaN then none
    else if x < y then some .lt else if y < x then some .gt else some .eq

/-- The nearest float, if there is one. -/
def toFloat : Number → Outcome Float
  | float x => .ok x
  | int n =>
    let x := (Decimal.Scaled.mk n.natAbs 0).toFloat
    if x.isInf then .error .tooLarge else .ok (if n < 0 then -x else x)

end Number

namespace Datum

def number? : Datum → Option Number
  | bool b => some (.int (if b then 1 else 0))
  | int n => some (.int n)
  | float x => some (.float x)
  | _ => none

/-- An integer where a position or a count is expected. -/
def index : Datum → Outcome Int
  | bool b => .ok (if b then 1 else 0)
  | int n => .ok n
  | _ => .error .wrongType

/-- Whether a value counts as true. -/
def truth : Datum → Bool
  | nothing => false
  | bool b => b
  | int n => n != 0
  | float x => !(x == 0.0)
  | text s => s != ""
  | list items | tuple items => !items.isEmpty
  | dict entries => !entries.isEmpty
  | stream _ | space _ => true

mutual

/-- Holds if two values are equal. Streams and spaces are equal to themselves alone, and two values
are never the same one. -/
def equal : Datum → Datum → Bool
  | nothing, nothing => true
  | text s, text t => s == t
  | list as, list bs => equalAll as bs
  | tuple as, tuple bs => equalAll as bs
  | dict as, dict bs => as.length == bs.length && entriesIn as bs
  | bool a, b => equalNumbers (.int (if a then 1 else 0)) b
  | int a, b => equalNumbers (.int a) b
  | float a, b => equalNumbers (.float a) b
  | _, _ => false
termination_by structural a => a

def equalAll : List Datum → List Datum → Bool
  | [], [] => true
  | a :: as, b :: bs => equal a b && equalAll as bs
  | _, _ => false
termination_by structural as => as

def entriesIn : List (Datum × Datum) → List (Datum × Datum) → Bool
  | [], _ => true
  | e :: es, fs => entryIn e fs && entriesIn es fs
termination_by structural es => es

def entryIn : Datum × Datum → List (Datum × Datum) → Bool
  | (k, v), fs => fs.any fun f => equal k f.1 && equal v f.2
termination_by structural e => e

def equalNumbers (a : Number) (b : Datum) : Bool :=
  match b.number? with
  | some b => a.compare b == some .eq
  | none => false

end

/-- Holds of two values that are one and the same wherever they occur: small numbers, short texts
and what there is but one of. -/
def same : Datum → Datum → Bool
  | nothing, nothing => true
  | bool a, bool b => a == b
  | int a, int b => a == b && -5 ≤ a && a ≤ 256
  | text s, text t => s == t && s.toList.all (·.toNat < 256) && s.length ≤ 1
  | tuple [], tuple [] => true
  | _, _ => false

/-- An order in question. -/
inductive Relation
  | lt | le | gt | ge
deriving DecidableEq, Repr

def Relation.holds (r : Relation) (o : Ordering) : Bool :=
  match r with
  | lt => o.isLT
  | le => o.isLE
  | gt => o.isGT
  | ge => o.isGE

mutual

/-- Whether values stand in an order. Numbers do, and texts, and lists or tuples item by item. -/
def ordered (r : Relation) : Datum → Datum → Outcome Bool
  | text s, text t => .ok (r.holds (compare s t))
  | list as, list bs => orderedItems r as bs
  | tuple as, tuple bs => orderedItems r as bs
  | bool a, b => orderedNumbers r (.int (if a then 1 else 0)) b
  | int a, b => orderedNumbers r (.int a) b
  | float a, b => orderedNumbers r (.float a) b
  | _, _ => .error .wrongType
termination_by structural a => a

/-- The first items that differ decide, or else the lengths. -/
def orderedItems (r : Relation) : List Datum → List Datum → Outcome Bool
  | a :: as, b :: bs => if a.equal b then orderedItems r as bs else ordered r a b
  | as, bs => .ok (r.holds (compare as.length bs.length))
termination_by structural as => as

def orderedNumbers (r : Relation) (a : Number) (b : Datum) : Outcome Bool :=
  match b.number? with
  | some b => .ok ((a.compare b).any r.holds)
  | none => .error .wrongType

end

mutual

/-- A value as it would be written in code. -/
def shown : Datum → String
  | nothing => "None"
  | bool b => if b then "True" else "False"
  | int n => toString n
  | float x => Decimal.floatText x
  | text s => Text.quote s
  | list items => "[" ++ ", ".intercalate (shownAll items) ++ "]"
  | tuple items =>
    match shownAll items with
    | [one] => "(" ++ one ++ ",)"
    | all => "(" ++ ", ".intercalate all ++ ")"
  | dict entries => "\x7b" ++ ", ".intercalate (shownEntries entries) ++ "\x7d"
  | stream _ => "<iterator>"
  | space _ => "<namespace>"
termination_by structural d => d

def shownAll : List Datum → List String
  | [] => []
  | d :: ds => shown d :: shownAll ds
termination_by structural ds => ds

def shownEntries : List (Datum × Datum) → List String
  | [] => []
  | e :: es => shownEntry e :: shownEntries es
termination_by structural es => es

def shownEntry : Datum × Datum → String
  | (k, v) => shown k ++ ": " ++ shown v
termination_by structural e => e

end

/-- A value as text; a text is itself. -/
def plain : Datum → String
  | text s => s
  | d => d.shown

/-- The items that a value gives one by one. -/
def items : Datum → Outcome (List Datum)
  | list items | tuple items | stream items => .ok items
  | text s => .ok (s.toList.map fun c => text (String.singleton c))
  | dict entries => .ok (entries.map (·.1))
  | _ => .error .wrongType

/-- The number of items, where it is known. -/
def size : Datum → Outcome Nat
  | list items | tuple items => .ok items.length
  | text s => .ok s.length
  | dict entries => .ok entries.length
  | _ => .error .wrongType

mutual

/-- Holds of values that can be keys. -/
def isKey : Datum → Bool
  | list _ | dict _ => false
  | tuple items => areKeys items
  | _ => true
termination_by structural d => d

def areKeys : List Datum → Bool
  | [] => true
  | d :: ds => isKey d && areKeys ds
termination_by structural ds => ds

end

/-- Sets an entry; a key that is there keeps its place. -/
def put (key value : Datum) : List (Datum × Datum) → List (Datum × Datum)
  | [] => [(key, value)]
  | e :: es => if e.1.equal key then (e.1, value) :: es else e :: put key value es

def dictOf (entries : List (Datum × Datum)) : Datum :=
  dict (entries.foldl (fun done e => put e.1 e.2 done) [])

/-- The value of a key. -/
def lookup (entries : List (Datum × Datum)) (key : Datum) : Outcome Datum :=
  if !key.isKey then .error .wrongType
  else
    match entries.find? fun e => e.1.equal key with
    | some e => .ok e.2
    | none => .error .noKey

/-- An item by its position; negative positions count from the end. -/
def nth (ds : List Datum) (position : Datum) : Outcome Datum := do
  let n ← position.index
  let n := if n < 0 then n + ds.length else n
  if n < 0 then throw .outOfRange
  match ds[n.toNat]? with
  | some d => return d
  | none => throw .outOfRange

/-- What stands in brackets behind a value. -/
def item (d position : Datum) : Outcome Datum :=
  match d with
  | list ds | tuple ds => nth ds position
  | text s => nth (s.toList.map fun c => text (String.singleton c)) position
  | dict entries => lookup entries position
  | _ => .error .wrongType

/-- The text whose method is called. -/
def asText : Datum → Outcome String
  | text s => .ok s
  | space _ => .error .wrongType
  | _ => .error .noAttribute

/-- The entries of the dictionary whose method is called. -/
def asEntries : Datum → Outcome (List (Datum × Datum))
  | dict entries => .ok entries
  | space _ => .error .wrongType
  | _ => .error .noAttribute

end Datum

end Stencil.Builtin
