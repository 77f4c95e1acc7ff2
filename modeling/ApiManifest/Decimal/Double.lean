/-!
Numbers in the binary64 format, kept as their bits, and the reading of a decimal as the nearest
such number. All arithmetic is on natural numbers.
-/

namespace ApiManifest

/-- A binary64 number: a sign bit, eleven exponent bits and fifty-two fraction bits. -/
structure Double where
  bits : UInt64
  deriving DecidableEq, Inhabited

namespace Double

/-- The number of values of the fraction field. -/
def fractions : Nat :=
  Nat.pow 2 52

/-- The bits of a zero with the sign. -/
def zeroBits (negative : Bool) : Nat :=
  if negative then Nat.pow 2 63 else 0

def negative (x : Double) : Bool :=
  decide (zeroBits true ≤ x.bits.toNat)

/-- The exponent field. 2047 marks the infinities and what is no number. -/
def exponentField (x : Double) : Nat :=
  x.bits.toNat / fractions % 2048

def fraction (x : Double) : Nat :=
  x.bits.toNat % fractions

def isFinite (x : Double) : Bool :=
  decide (x.exponentField < 2047)

/-- The size of a finite number is `significand * 2 ^ (scale - 1074)`. -/
def significand (x : Double) : Nat :=
  if x.exponentField = 0 then x.fraction else fractions + x.fraction

def scale (x : Double) : Nat :=
  x.exponentField - 1

def isZero (x : Double) : Bool :=
  decide (x.significand = 0)

def infinity (negative : Bool) : Double :=
  ⟨UInt64.ofNat (zeroBits negative + 2047 * fractions)⟩

end Double

namespace Decimal

/-- The quotient rounded to the nearest natural number, a half to the even one. -/
def roundHalfEven (numerator denominator : Nat) : Nat :=
  let quotient := numerator / denominator
  let twice := 2 * (numerator % denominator)
  if twice < denominator then quotient
  else if denominator < twice then quotient + 1
  else if quotient % 2 = 0 then quotient else quotient + 1

/-- The number of decimal digits, none for zero. -/
def digitCount (n : Nat) : Nat :=
  if n = 0 then 0 else (Nat.toDigits 10 n).length

/-- The greatest `s` from 0 on with `2 ^ (s + 52) * denominator ≤ numerator * 2 ^ 1074`: the
scale at which a quotient has fifty-three significant bits, or the least scale. -/
def scaleOf (numerator denominator : Nat) : Nat :=
  let scaled := numerator * Nat.pow 2 1074
  let guess := Nat.log2 scaled - Nat.log2 denominator
  (if Nat.pow 2 guess * denominator ≤ scaled then guess else guess - 1) - 52

/-- The double nearest to a positive quotient; a quotient too large is infinite. -/
def nearestQuotient (negative : Bool) (numerator denominator : Nat) : Double :=
  let scale := scaleOf numerator denominator
  let rounded := roundHalfEven (numerator * Nat.pow 2 1074) (denominator * Nat.pow 2 scale)
  let magnitude :=
    if rounded < Double.fractions then rounded
    else (scale + 1) * Double.fractions + (rounded - Double.fractions)
  if magnitude < 2047 * Double.fractions then
    ⟨UInt64.ofNat (Double.zeroBits negative + magnitude)⟩
  else Double.infinity negative

/-- The double nearest to `digits * 10 ^ exponent`. Exponents far outside the range are decided
by the number of digits alone. -/
def nearest (negative : Bool) (digits : Nat) (exponent : Int) : Double :=
  let magnitude := (digitCount digits : Int) + exponent
  if digits = 0 ∨ magnitude < -400 then
    ⟨UInt64.ofNat (Double.zeroBits negative)⟩
  else if 400 < magnitude then Double.infinity negative
  else if 0 ≤ exponent then nearestQuotient negative (digits * Nat.pow 10 exponent.toNat) 1
  else nearestQuotient negative digits (Nat.pow 10 (-exponent).toNat)

end Decimal

end ApiManifest
