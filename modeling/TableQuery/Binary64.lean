/-! Finite binary floating-point numbers of 64 bits, with exact rounding.
A number is a signed significand of at most 53 bits times a power of two.  All rounding is to
the nearest number, and from halfway to the even significand.
-/

namespace TableQuery

/-- The quotient rounded to the nearest natural number, from halfway to the even one. -/
def roundDiv (numerator denominator : Nat) : Nat :=
  let quotient := numerator / denominator
  let remainder := numerator % denominator
  if 2 * remainder < denominator then quotient
  else if denominator < 2 * remainder then quotient + 1
  else quotient + quotient % 2

/-- A quotient of natural numbers, scaled by a power of two. -/
structure ScaledRatio where
  numerator : Nat
  denominator : Nat
  exponent : Int

/-- A sign, a significand and the power of two that one unit of the significand is worth.
Only the smallest unit may have a significand of fewer than 53 bits.
-/
@[ext]
structure Binary64 where
  negative : Bool
  significand : Nat
  exponent : Int
  significand_lt : significand < Nat.pow 2 53
  exponent_bounds : -1074 ≤ exponent ∧ exponent ≤ 971
  normal : Nat.pow 2 52 ≤ significand ∨ exponent = -1074
deriving DecidableEq

namespace Binary64

/-- The smallest power of two that a unit of the significand can be worth. -/
abbrev minExponent : Int := -1074

def zero (negative : Bool) : Binary64 where
  negative
  significand := 0
  exponent := minExponent
  significand_lt := by decide
  exponent_bounds := by decide
  normal := Or.inr rfl

def isZero (x : Binary64) : Bool :=
  x.significand == 0

def negate (x : Binary64) : Binary64 :=
  { x with negative := !x.negative }

/-- The number of these fields, where they are those of a finite number. -/
def ofFields? (negative : Bool) (significand : Nat) (exponent : Int) : Option Binary64 :=
  if fields : significand < Nat.pow 2 53 ∧ (-1074 ≤ exponent ∧ exponent ≤ 971)
      ∧ (Nat.pow 2 52 ≤ significand ∨ exponent = -1074) then
    some {
      negative, significand, exponent
      significand_lt := fields.1
      exponent_bounds := fields.2.1
      normal := fields.2.2
    }
  else
    none

/-- The unit in which a positive ratio has a significand of 53 bits, or the smallest unit
for a ratio too small for that.
-/
def unitExponent (ratio : ScaledRatio) : Int :=
  let guess := (ratio.numerator.log2 : Int) - ratio.denominator.log2
  let reaches :=
    ratio.denominator * Nat.pow 2 guess.toNat ≤ ratio.numerator * Nat.pow 2 (-guess).toNat
  let magnitude := if reaches then guess else guess - 1
  max minExponent (magnitude + ratio.exponent - 52)

/-- The number nearest to a ratio, or nothing if it is too large for a finite one. -/
def round? (negative : Bool) (ratio : ScaledRatio) : Option Binary64 :=
  if ratio.numerator = 0 then
    some (zero negative)
  else
    let unit := unitExponent ratio
    let shift := ratio.exponent - unit
    let significand :=
      roundDiv (ratio.numerator * Nat.pow 2 shift.toNat)
        (ratio.denominator * Nat.pow 2 (-shift).toNat)
    if significand = Nat.pow 2 53 then ofFields? negative (Nat.pow 2 52) (unit + 1)
    else ofFields? negative significand unit

/-- The number nearest to a natural number. -/
def ofNat? (n : Nat) : Option Binary64 :=
  round? false { numerator := n, denominator := 1, exponent := 0 }

/-- The product of two numbers, unless it is too large. -/
def mul? (x y : Binary64) : Option Binary64 :=
  round? (x.negative ^^ y.negative) {
    numerator := x.significand * y.significand
    denominator := 1
    exponent := x.exponent + y.exponent
  }

/-- The quotient of two numbers, unless it is too large. -/
def div? (x y : Binary64) : Option Binary64 :=
  round? (x.negative ^^ y.negative) {
    numerator := x.significand
    denominator := y.significand
    exponent := x.exponent - y.exponent
  }

end Binary64

end TableQuery
