import Stencil.Decimal.Shortest

/-! The exact values of floating point numbers, and decimals with a given number of places. -/
namespace Stencil.Decimal

/-- What a double stands for. A finite one is `mantissa * 2 ^ exponent` with a sign, which zero has
too. -/
inductive Exact
  | nan
  | infinite (negative : Bool)
  | finite (negative : Bool) (mantissa : Nat) (exponent : Int)
deriving DecidableEq, Repr

def Exact.ofFloat (x : Float) : Exact :=
  let ⟨negative, exponent, fraction⟩ := Fields.ofFloat x
  if exponent == 2047 then (if fraction == 0 then .infinite negative else .nan)
  else if exponent == 0 then .finite negative fraction (-1074)
  else .finite negative (powerOfTwo 52 + fraction) ((exponent : Int) - 1075)

/-- The integer part of `mantissa * 2 ^ exponent`. -/
def wholePart (mantissa : Nat) (exponent : Int) : Nat :=
  mantissa * powerOfTwo exponent.toNat / powerOfTwo (-exponent).toNat

/-- Holds if `mantissa * 2 ^ exponent` is an integer. -/
def isWhole (mantissa : Nat) (exponent : Int) : Bool :=
  mantissa * powerOfTwo exponent.toNat % powerOfTwo (-exponent).toNat == 0

/-- Rounds a quotient to the nearest integer; a tie goes to the even one. -/
def roundDiv (num den : Nat) : Nat :=
  let q := num / den
  match compare (2 * (num % den)) den with
  | .lt => q
  | .gt => q + 1
  | .eq => if q % 2 == 0 then q else q + 1

/-- `mantissa * 2 ^ exponent`, counted in `10 ^ place` and rounded. -/
def roundAt (mantissa : Nat) (exponent place : Int) : Nat :=
  roundDiv (mantissa * powerOfTwo exponent.toNat * powerOfTen (-place).toNat)
    (powerOfTwo (-exponent).toNat * powerOfTen place.toNat)

/-- Digits with so many places behind the point, and at least one before it. -/
def placedDigits (n places : Nat) : List Char :=
  let ds := Nat.toDigits 10 n
  let ds := List.replicate (places + 1 - ds.length) '0' ++ ds
  let whole := ds.take (ds.length - places)
  if places = 0 then whole else whole ++ '.' :: ds.drop (ds.length - places)

/-- Positional notation with so many places. -/
def fixedText (mantissa : Nat) (exponent : Int) (places : Nat) : List Char :=
  placedDigits (roundAt mantissa exponent (-places)) places

/-- So many digits behind the first and the exponent of the first. -/
def leadingDigits (mantissa : Nat) (exponent : Int) (places : Nat) : Nat × Int :=
  if mantissa = 0 then (0, 0)
  else
    let first := (Binary.mk mantissa exponent false).magnitude - 1
    let n := roundAt mantissa exponent (first - places)
    if n ≥ powerOfTen (places + 1) then (n / 10, first + 1) else (n, first)

/-- Notation with an exponent and so many places. -/
def scientificText (mantissa : Nat) (exponent : Int) (places : Nat) : List Char :=
  let (n, first) := leadingDigits mantissa exponent places
  placedDigits n places ++ 'e' :: exponentText first

/-- Drops the zeros behind the point, and a point with nothing behind it. -/
def withoutZeros (cs : List Char) : List Char :=
  if cs.contains '.' then
    (cs.reverse.dropWhile (· == '0')).dropWhile (· == '.') |>.reverse
  else cs

/-- So many significant digits, positional unless the exponent is large or very small. Zeros at the
end are dropped unless they are kept. -/
def generalText (mantissa : Nat) (exponent : Int) (digits : Nat) (keepZeros : Bool) : List Char :=
  let digits := max digits 1
  let (n, first) := leadingDigits mantissa exponent (digits - 1)
  if -4 ≤ first && first < digits then
    let text := fixedText mantissa exponent ((digits : Int) - 1 - first).toNat
    if keepZeros then (if text.contains '.' then text else text ++ ['.']) else withoutZeros text
  else
    let text := placedDigits n (digits - 1)
    let text := if keepZeros then (if text.contains '.' then text else text ++ ['.'])
      else withoutZeros text
    text ++ 'e' :: exponentText first

/-- A double rounded to so many places; there may be less than none. -/
def roundFloat (x : Float) (places : Int) : Float :=
  match Exact.ofFloat x with
  | .finite negative mantissa exponent =>
    if places > 323 then x
    else
      let n := if places < -308 then 0 else roundAt mantissa exponent (-places)
      let y := (Scaled.mk n (-places)).toFloat
      if negative then -y else y
  | _ => x

end Stencil.Decimal
