import Stencil.Data.Value

/-! Dates and times. -/
namespace Stencil.Data

/-- A time of day. -/
structure Clock where
  hour : Nat
  minute : Nat
  second : Nat
  micros : Nat
deriving DecidableEq, Repr

structure Date where
  year : Nat
  month : Nat
  day : Nat
deriving DecidableEq, Repr

inductive Moment
  | time (t : Clock)
  | date (d : Date)
  /-- A date and a time, with the minutes by which the zone is ahead if they are given. -/
  | both (d : Date) (t : Clock) (offset : Option Int)
deriving DecidableEq, Repr

namespace Date

def isLeap (year : Nat) : Bool := year % 4 == 0 && (year % 100 != 0 || year % 400 == 0)

def daysIn (year month : Nat) : Nat :=
  if month == 2 then (if isLeap year then 29 else 28)
  else if [4, 6, 9, 11].contains month then 30
  else 31

/-- Holds of the days that there are. -/
def isValid (d : Date) : Bool := d.year ≥ 1 && d.day ≤ daysIn d.year d.month

end Date

namespace Moment

def isValid : Moment → Bool
  | time _ => true
  | date d | both d _ _ => d.isValid

/-- Numbers with commas between them. -/
def listed (ns : List Nat) : String := ", ".intercalate (ns.map toString)

/-- The fields of a time; seconds are left out if they are zero, and so are their parts. -/
def clockFields (t : Clock) : List Nat :=
  if t.micros != 0 then [t.hour, t.minute, t.second, t.micros]
  else if t.second != 0 then [t.hour, t.minute, t.second]
  else [t.hour, t.minute]

/-- A difference of time, in whole days and the seconds of a day. -/
def offsetText (minutes : Int) : String :=
  if minutes = 0 then "datetime.timezone.utc"
  else
    let inner :=
      if minutes < 0 then s!"days=-1, seconds={86400 + 60 * minutes}"
      else s!"seconds={60 * minutes}"
    s!"datetime.timezone(datetime.timedelta({inner}))"

/-- How error texts show a moment. -/
def text : Moment → String
  | time t => s!"datetime.time({listed (clockFields t)})"
  | date d => s!"datetime.date({listed [d.year, d.month, d.day]})"
  | both d t none => s!"datetime.datetime({listed ([d.year, d.month, d.day] ++ clockFields t)})"
  | both d t (some m) =>
    s!"datetime.datetime({listed ([d.year, d.month, d.day] ++ clockFields t)}, tzinfo={offsetText m})"

/-- A number of exactly `width` digits between two bounds. -/
def number? (width low high : Nat) (cs : List Char) : Option (Nat × List Char) :=
  let ds := cs.take width
  let n := ds.foldl (fun n c => 10 * n + (c.toNat - 48)) 0
  if ds.length == width && ds.all Char.isDigit && low ≤ n && n ≤ high then some (n, cs.drop width)
  else none

def skip? (c : Char) : List Char → Option (List Char)
  | d :: ds => if c == d then some ds else none
  | [] => none

/-- The parts of a second behind a point. -/
def micros : List Char → Nat × List Char
  | '.' :: cs =>
    let ds := cs.takeWhile Char.isDigit
    if ds.isEmpty then (0, '.' :: cs)
    else
      let six := (ds ++ List.replicate 6 '0').take 6
      (six.foldl (fun n c => 10 * n + (c.toNat - 48)) 0, cs.drop ds.length)
  | cs => (0, cs)

def clock? (cs : List Char) : Option (Clock × List Char) := do
  let (hour, cs) ← number? 2 0 23 cs
  let (minute, cs) ← number? 2 0 59 (← skip? ':' cs)
  let (second, cs) ← number? 2 0 59 (← skip? ':' cs)
  let (micros, cs) := micros cs
  return (⟨hour, minute, second, micros⟩, cs)

def date? (cs : List Char) : Option (Date × List Char) := do
  let (year, cs) ← number? 4 0 9999 cs
  let (month, cs) ← number? 2 1 12 (← skip? '-' cs)
  let (day, cs) ← number? 2 1 31 (← skip? '-' cs)
  return (⟨year, month, day⟩, cs)

/-- Hours and minutes behind a sign, in minutes. -/
def offset? : List Char → Option (Int × List Char)
  | c :: cs =>
    if c == 'Z' || c == 'z' then some (0, cs)
    else if c == '+' || c == '-' then do
      let (hours, cs) ← number? 2 0 23 cs
      let (minutes, cs) ← number? 2 0 59 (← skip? ':' cs)
      let n : Int := 60 * hours + minutes
      return (if c == '-' then -n else n, cs)
    else none
  | [] => none

/-- The time behind a date, with its offset. -/
def timeOfDay? : List Char → Option ((Clock × Option Int) × List Char)
  | c :: cs =>
    if c == 'T' || c == 't' || c == ' ' then do
      let (t, cs) ← clock? cs
      match offset? cs with
      | some (m, cs) => return ((t, some m), cs)
      | none => return ((t, none), cs)
    else none
  | [] => none

/-- The moment at the beginning of a text. -/
def read? (cs : List Char) : Option (Moment × List Char) :=
  match date? cs with
  | some (d, rest) =>
    match timeOfDay? rest with
    | some ((t, m), rest) => some (both d t m, rest)
    | none => some (date d, rest)
  | none => (clock? cs).map fun r => (time r.1, r.2)

end Moment

end Stencil.Data
