/-!
Decimal text of floating point numbers: the fewest digits that read back as the same number, and of
those the digits nearest to it.
-/
namespace Stencil.Decimal

def powerOfTwo (e : Nat) : Nat := Nat.pow 2 e

def powerOfTen (e : Nat) : Nat := Nat.pow 10 e

/-- The decimal number `digits * 10 ^ exponent`. -/
structure Scaled where
  digits : Nat
  exponent : Int
deriving DecidableEq, Repr

/-- A positive number `mantissa * 2 ^ exponent`. -/
structure Binary where
  mantissa : Nat
  exponent : Int
  /-- Holds if the next smaller number is only half as far as the next larger one. -/
  lowEdge : Bool

/-- The sign, exponent and fraction in the bits of a double. -/
structure Fields where
  negative : Bool
  exponent : Nat
  fraction : Nat

def Fields.ofFloat (x : Float) : Fields :=
  let bits := x.toBits.toNat
  ⟨bits ≥ powerOfTwo 63, bits / powerOfTwo 52 % powerOfTwo 11, bits % powerOfTwo 52⟩

/-- A positive finite double given by the bits of its exponent and fraction. -/
def Binary.ofFields (exponent fraction : Nat) : Binary :=
  if exponent == 0 then ⟨fraction, -1074, false⟩
  else ⟨powerOfTwo 52 + fraction, (exponent : Int) - 1075, fraction == 0 && exponent > 1⟩

/-- Compares `a * 2 ^ e` with `d * 10 ^ p`. -/
def compareScaled (a : Nat) (e : Int) (d : Nat) (p : Int) : Ordering :=
  compare (a * powerOfTwo e.toNat * powerOfTen (-p).toNat)
    (d * powerOfTen p.toNat * powerOfTwo (-e).toNat)

/-- Holds if the decimal `d * 10 ^ p` rounds to `b`; the ends count if the mantissa is even. -/
def Binary.covers (b : Binary) (d : Nat) (p : Int) : Bool :=
  let low := 4 * b.mantissa - (if b.lowEdge then 1 else 2)
  let high := 4 * b.mantissa + 2
  let closed := b.mantissa % 2 == 0
  let above := compareScaled low (b.exponent - 2) d p
  let below := compareScaled high (b.exponent - 2) d p
  (above == .lt || (closed && above == .eq)) && (below == .gt || (closed && below == .eq))

/-- The number of decimal places before the point; not positive for numbers below one. -/
def Binary.magnitude (b : Binary) : Int :=
  let num := b.mantissa * powerOfTwo b.exponent.toNat
  let den := powerOfTwo (-b.exponent).toNat
  if den ≤ num then ((Nat.toDigits 10 (num / den)).length : Int)
  else
    let n := (Nat.toDigits 10 (den / num)).length
    if den ≤ num * powerOfTen (n - 1) then 2 - (n : Int) else 1 - (n : Int)

/-- The larger multiple of `10 ^ p` that is not above `b`, counted in `10 ^ p`. -/
def Binary.floorAt (b : Binary) (p : Int) : Nat :=
  (b.mantissa * powerOfTwo b.exponent.toNat * powerOfTen (-p).toNat) /
    (powerOfTwo (-b.exponent).toNat * powerOfTen p.toNat)

/-- The one of `d` and `d + 1`, counted in `10 ^ p`, that is nearer to `b`; a tie goes to the even
one. -/
def Binary.nearer (b : Binary) (d : Nat) (p : Int) : Nat :=
  match compareScaled (2 * b.mantissa) b.exponent (2 * d + 1) p with
  | .lt => d
  | .gt => d + 1
  | .eq => if d % 2 == 0 then d else d + 1

/-- The decimal on the grid `10 ^ p` that reads back as `b`, if there is one. -/
def Binary.onGrid? (b : Binary) (p : Int) : Option Scaled :=
  let d := b.floorAt p
  match b.covers d p, b.covers (d + 1) p with
  | true, true => some ⟨b.nearer d p, p⟩
  | true, false => some ⟨d, p⟩
  | false, true => some ⟨d + 1, p⟩
  | false, false => none

/-- The fewest digits that read back as `b`. Seventeen always do. -/
def Binary.shortest (b : Binary) : Scaled :=
  let k := b.magnitude
  ((List.range 17).findSome? fun i => b.onGrid? (k - ((i + 1 : Nat) : Int))).getD
    ⟨b.floorAt (k - 17), k - 17⟩

/-- The decimal digits of `n` without the zeros at the end. -/
def significantDigits (n : Nat) : List Char :=
  ((Nat.toDigits 10 n).reverse.dropWhile (· == '0')).reverse

/-- How a number is laid out: positional while the point is at most `maxPoint` places after the
first digit and more than `minPoint` places before it, else with an exponent of two digits or
more. -/
structure Layout where
  minPoint : Int
  maxPoint : Int

def plain : Layout := ⟨-4, 16⟩

/-- An exponent with its sign and at least two digits. -/
def exponentText (e : Int) : List Char :=
  let ds := Nat.toDigits 10 e.natAbs
  (if e < 0 then '-' else '+') :: (if ds.length < 2 then '0' :: ds else ds)

/-- Writes `0.d₁d₂… * 10 ^ point`. -/
def Layout.write (l : Layout) (ds : List Char) (point : Int) : List Char :=
  if l.minPoint < point && point ≤ l.maxPoint then
    if point ≤ 0 then '0' :: '.' :: List.replicate (-point).toNat '0' ++ ds
    else
      let n := point.toNat
      if ds.length ≤ n then ds ++ List.replicate (n - ds.length) '0' ++ ['.', '0']
      else ds.take n ++ '.' :: ds.drop n
  else
    match ds with
    | [] => []
    | d :: rest =>
      let fraction := if rest.isEmpty then [] else '.' :: rest
      d :: fraction ++ 'e' :: exponentText (point - 1)

/-- The text of a double: sign, then `inf`, `nan`, zero or the shortest digits. -/
def floatText (x : Float) : String :=
  let ⟨negative, exponent, fraction⟩ := Fields.ofFloat x
  let body :=
    if exponent == 2047 then (if fraction == 0 then "inf".toList else "nan".toList)
    else if exponent == 0 && fraction == 0 then "0.0".toList
    else
      let b := Binary.ofFields exponent fraction
      let s := b.shortest
      let ds := Nat.toDigits 10 s.digits
      plain.write (significantDigits s.digits) (ds.length + s.exponent)
  if negative && !(exponent == 2047 && fraction != 0) then String.ofList ('-' :: body)
  else String.ofList body

/-- The double nearest to `digits * 10 ^ exponent`. Beyond the range of doubles the exponent is not
raised any further. -/
def Scaled.toFloat (s : Scaled) : Float :=
  let size : Int := (Nat.toDigits 10 s.digits).length + s.exponent
  if s.digits == 0 then 0.0
  else if size > 400 then 1.0 / 0.0
  else if size < -400 then 0.0
  else Float.ofScientific s.digits (s.exponent < 0) s.exponent.natAbs

end Stencil.Decimal
