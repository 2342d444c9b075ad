import TableQuery.Binary64

/-! Decimal forms of binary floating-point numbers.
Writing takes the fewest digits that are read back as the same number, and of those the ones
nearest to it.  Reading scales a significand of 64 bits by powers of ten, each step rounded,
so its last bit may differ from the nearest number.
-/

namespace TableQuery.Binary64

-------------------------------------------------------------------------------
-- Writing
-------------------------------------------------------------------------------

/-- A natural number of decimal units; one unit is worth a power of ten. -/
structure Decimal where
  digits : Nat
  exponent : Int
deriving DecidableEq

namespace Decimal

/-- The number of decimal digits of a natural number. -/
def digitCount (n : Nat) : Nat :=
  (Nat.toDigits 10 n).length

/-- Moves zeros at the end of the digits into the exponent, at most the given number. -/
def trim : Nat → Decimal → Decimal
  | 0, decimal => decimal
  | limit + 1, decimal =>
      if decimal.digits % 10 = 0 then
        trim limit { digits := decimal.digits / 10, exponent := decimal.exponent + 1 }
      else
        decimal

end Decimal

/-- A positive number and the bounds of what is rounded to it, over one denominator. -/
structure RoundingInterval where
  low : Nat
  value : Nat
  high : Nat
  denominator : Nat
  closed : Bool

namespace RoundingInterval

/-- The bounds lie halfway to the neighbours.
The lower neighbour is nearer where the significand is the least of 53 bits, and the bounds
themselves are rounded to a number whose significand is even.
-/
def around (x : Binary64) : RoundingInterval :=
  let quarter := x.exponent - 2
  let scale := Nat.pow 2 quarter.toNat
  let below := if x.significand = Nat.pow 2 52 ∧ minExponent < x.exponent then 1 else 2
  {
    low := (4 * x.significand - below) * scale
    value := 4 * x.significand * scale
    high := (4 * x.significand + 2) * scale
    denominator := Nat.pow 2 (-quarter).toNat
    closed := x.significand % 2 == 0
  }

/-- How many digits the value has before its decimal point.
For a value below one this is zero, or negative by the number of zeros behind the point.
-/
def magnitude (interval : RoundingInterval) : Int :=
  if interval.denominator ≤ interval.value then
    Decimal.digitCount (interval.value / interval.denominator)
  else
    1 - Decimal.digitCount ((interval.denominator - 1) / interval.value)

/-- The nearest decimal of the given number of digits, if it lies in the interval.
Only the decimals next to the value on either side can be nearest; from halfway the even one
is taken.
-/
def decimalOfLength? (interval : RoundingInterval) (length : Nat) : Option Decimal :=
  let exponent := interval.magnitude - length
  let up := Nat.pow 10 (-exponent).toNat
  let unit := interval.denominator * Nat.pow 10 exponent.toNat
  let inside := fun digits =>
    let point := digits * unit
    if interval.closed then interval.low * up ≤ point ∧ point ≤ interval.high * up
    else interval.low * up < point ∧ point < interval.high * up
  let below := interval.value * up / unit
  let nearest := roundDiv (interval.value * up) unit
  let other := if nearest = below then below + 1 else below
  if inside nearest then some { digits := nearest, exponent }
  else if inside other then some { digits := other, exponent }
  else none

end RoundingInterval

/-- The shortest decimal that is read back as the given number.
Seventeen digits tell any two numbers apart.
-/
def shortest (x : Binary64) : Decimal :=
  let interval := RoundingInterval.around x
  let found := (List.range 17).findSome? (fun more => interval.decimalOfLength? (more + 1))
  (found.getD { digits := 0, exponent := 0 }).trim 17

/-- Digits with a decimal point among, before or behind them. -/
def positional (digits : List Char) (exponent : Int) : List Char :=
  let point := digits.length + exponent
  if 0 ≤ exponent then
    digits ++ List.replicate exponent.toNat '0' ++ ['.', '0']
  else if 0 < point then
    digits.take point.toNat ++ ['.'] ++ digits.drop point.toNat
  else
    ['0', '.'] ++ List.replicate (-point).toNat '0' ++ digits

/-- One digit before the decimal point, and a signed power of ten. -/
def scientific (digits : List Char) (exponent : Int) : List Char :=
  let power := digits.length + exponent - 1
  let sign := if power < 0 then '-' else '+'
  let fraction := if digits.length = 1 then [] else '.' :: digits.tail
  digits.take 1 ++ fraction ++ ['e', sign] ++ Nat.toDigits 10 power.natAbs

/-- The text of a number.
It is positional from 10^−5 up to below 10^16, always with a digit behind the decimal point,
and scientific otherwise.
-/
def render (x : Binary64) : List Char :=
  let sign := if x.negative then ['-'] else []
  if x.isZero then
    sign ++ ['0', '.', '0']
  else
    let decimal := x.shortest
    let digits := Nat.toDigits 10 decimal.digits
    let point := digits.length + decimal.exponent
    if -5 < point ∧ point ≤ 16 then sign ++ positional digits decimal.exponent
    else sign ++ scientific digits decimal.exponent

-------------------------------------------------------------------------------
-- Reading
-------------------------------------------------------------------------------

/-- The greatest exponent of a power of ten that is a finite number. -/
def maxPowerOfTen : Nat := 308

/-- The number nearest to a power of ten, for exponents up to the greatest one. -/
def powerOfTen (exponent : Nat) : Binary64 :=
  (ofNat? (Nat.pow 10 (min exponent maxPowerOfTen))).getD (zero false)

/-- A quotient by a power of ten, which is never too large. -/
def divPowerOfTen (x : Binary64) (exponent : Nat) : Binary64 :=
  (x.div? (powerOfTen exponent)).getD x

/-- Divides by a power of ten of any size, in steps of the greatest finite one. -/
def scaleDown (x : Binary64) (exponent : Nat) : Binary64 :=
  if exponent ≤ maxPowerOfTen then x.divPowerOfTen exponent
  else if x.isZero then x
  else (x.divPowerOfTen maxPowerOfTen).scaleDown (exponent - maxPowerOfTen)
termination_by exponent
decreasing_by simp [maxPowerOfTen] at *; omega

/-- A natural number times a power of ten, or nothing if that is out of range. -/
def ofDecimal? (significand : Nat) (exponent : Int) : Option Binary64 :=
  (ofNat? significand).bind (fun x =>
    if exponent < 0 then some (x.scaleDown exponent.natAbs)
    else if exponent.toNat ≤ maxPowerOfTen then x.mul? (powerOfTen exponent.toNat)
    else if x.isZero then some x
    else none)

end TableQuery.Binary64
