import Stencil.Builtin.Format

/-! Arithmetic on values. -/
namespace Stencil.Builtin

namespace Number

/-- Sums and differences; one float makes the result a float. -/
def combine (whole : Int → Int → Int) (broken : Float → Float → Float) (a b : Number) :
    Outcome Datum :=
  match a, b with
  | int m, int n => .ok (.int (whole m n))
  | a, b => do return .float (broken (← a.toFloat) (← b.toFloat))

/-- The float nearest to `n * 2 ^ e` for numbers that have one. -/
def scaled (n : Nat) (e : Int) : Float :=
  let shift := (Nat.log2 n) - 52
  (Float.ofNat (n / Decimal.powerOfTwo shift)).scaleB (e + shift)

/-- The remainder of dividing by a float that is not zero. It has the sign of the divisor. -/
def floatRemainder (x y : Float) : Float :=
  match Decimal.Exact.ofFloat x, Decimal.Exact.ofFloat y with
  | .nan, _ | _, .nan | .infinite _, _ => 0.0 / 0.0
  | .finite negative m _, .infinite below =>
    if m = 0 then (if below then -0.0 else 0.0) else if negative = below then x else y
  | .finite negative m e, .finite below n f =>
    let low := min e f
    let rest := m * Decimal.powerOfTwo (e - low).toNat % (n * Decimal.powerOfTwo (f - low).toNat)
    let size := scaled rest low
    if rest = 0 then (if below then -0.0 else 0.0)
    else if negative = below then (if negative then -size else size)
    else if negative then y - size else y + size

def remainder (a b : Number) : Outcome Datum :=
  match a, b with
  | int m, int n => if n = 0 then .error .divisionByZero else .ok (.int (Int.fmod m n))
  | a, b => do
    let x ← a.toFloat
    let y ← b.toFloat
    if y == 0.0 then throw .divisionByZero
    return .float (floatRemainder x y)

/-- An integer rounded to a multiple of a power of ten; a tie goes to the even multiple. -/
def roundInt (n : Int) (places : Nat) : Int :=
  if places > (Nat.toDigits 10 n.natAbs).length then 0
  else
    let unit := Decimal.powerOfTen places
    let size : Nat := Decimal.roundDiv n.natAbs unit * unit
    if n < 0 then -size else size

end Number

namespace Datum

def both (f : Number → Number → Outcome Datum) (a b : Datum) : Outcome Datum :=
  match a.number?, b.number? with
  | some m, some n => f m n
  | _, _ => .error .wrongType

def add : Datum → Datum → Outcome Datum := both (Number.combine (· + ·) (· + ·))

def sub : Datum → Datum → Outcome Datum := both (Number.combine (· - ·) (· - ·))

/-- What the percent sign means: the remainder of numbers, and for a text writing the value into
it. -/
def remainder (a b : Datum) : Outcome Datum :=
  match a with
  | text s => do return text (← Format.apply s b)
  | a => both Number.remainder a b

def absolute (d : Datum) : Outcome Datum :=
  match d.number? with
  | some (.int n) => .ok (int n.natAbs)
  | some (.float x) => .ok (float x.abs)
  | none => .error .wrongType

/-- A number rounded to some places. Without a number of places the result is an integer. -/
def round (d places : Datum) : Outcome Datum :=
  match d.number?, places with
  | none, _ => .error .wrongType
  | some (.int n), nothing => .ok (int n)
  | some (.float x), nothing => do return int (← Format.wholePart (Decimal.roundFloat x 0))
  | some (.int n), places => do
    let p ← places.index
    return int (if p ≥ 0 then n else Number.roundInt n p.natAbs)
  | some (.float x), places => do
    let y := Decimal.roundFloat x (← places.index)
    if y.isInf && !x.isInf then throw .tooLarge
    return float y

end Datum

end Stencil.Builtin
