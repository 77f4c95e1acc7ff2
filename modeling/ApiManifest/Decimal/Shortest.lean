import ApiManifest.Decimal.Double

/-!
The shortest decimal that reads back as a given double, and the two layouts in which such a
decimal is written: one with an exponent for very large and very small numbers, and one that is
always positional.
-/

namespace ApiManifest.Decimal

/-- A positive decimal `digits * 10 ^ exponent`. -/
structure Short where
  digits : Nat
  exponent : Int
  deriving DecidableEq

/-- The decimal exponent of the leading digit of a positive quotient. -/
def leadingExponent (numerator denominator : Nat) : Int :=
  if denominator ≤ numerator then (digitCount (numerator / denominator) : Int) - 1
  else - (digitCount ((denominator - 1) / numerator) : Int)

/-- The numbers that read as one double lie between `low` and `high`, all three of them being
numerators over a common denominator; the ends belong to it when `closed`. -/
structure Interval where
  low : Nat
  value : Nat
  high : Nat
  denominator : Nat
  closed : Bool

/-- Halfway to the neighbouring doubles. The lower neighbour of a power of two is nearer. -/
def interval (x : Double) : Interval :=
  let m := x.significand
  let unit := Nat.pow 2 x.scale
  let narrow := decide (x.fraction = 0 ∧ 1 < x.exponentField)
  { low := (if narrow then 4 * m - 1 else 4 * m - 2) * unit
    value := 4 * m * unit
    high := (4 * m + 2) * unit
    denominator := Nat.pow 2 1076
    closed := decide (m % 2 = 0) }

/-- Whether `digits * 10 ^ exponent` reads as the double of the interval. -/
def Interval.contains (range : Interval) (digits : Nat) (exponent : Int) : Bool :=
  let up := Nat.pow 10 exponent.toNat
  let down := Nat.pow 10 (-exponent).toNat
  let point := digits * up * range.denominator
  if range.closed then decide (range.low * down ≤ point ∧ point ≤ range.high * down)
  else decide (range.low * down < point ∧ point < range.high * down)

/-- The decimal of so many digits nearest to the double, if it reads back. -/
def withDigits (range : Interval) (leading : Int) (count : Nat) : Option Short :=
  let exponent := leading - (count : Int) + 1
  let up := Nat.pow 10 exponent.toNat
  let down := Nat.pow 10 (-exponent).toNat
  let numerator := range.value * down
  let denominator := range.denominator * up
  let below := numerator / denominator
  let nearest := roundHalfEven numerator denominator
  let other := if nearest = below then below + 1 else below
  if range.contains nearest exponent then some ⟨nearest, exponent⟩
  else if range.contains other exponent then some ⟨other, exponent⟩
  else none

/-- The shortest decimal that reads back as a positive finite double, and of those the nearest. -/
def shortest (x : Double) : Short :=
  let range := interval x
  let leading := leadingExponent range.value range.denominator
  match (List.range 17).findSome? (fun n => withDigits range leading (n + 1)) with
  | some short => short
  | none => ⟨range.value / range.denominator, 0⟩

def dropTrailingZeros : List Char → List Char :=
  fun digits => (digits.reverse.dropWhile (· == '0')).reverse

def zeros (count : Nat) : List Char :=
  List.replicate count '0'

/-- Digits with the point after the first `place` of them, which may lie outside; at least one
digit stands before the point, and `whole` stands for an empty fraction. -/
def positional (digits : List Char) (place : Int) (whole : List Char) : List Char :=
  if place ≤ 0 then '0' :: '.' :: zeros (-place).toNat ++ digits
  else
    let place := place.toNat
    if digits.length ≤ place then digits ++ zeros (place - digits.length) ++ whole
    else digits.take place ++ '.' :: digits.drop place

def scientific (digits : List Char) (exponent : Int) : List Char :=
  let fraction := match digits with
    | first :: second :: rest => first :: '.' :: second :: rest
    | short => short
  fraction ++ 'e' :: (if exponent < 0 then '-' else '+') :: Nat.toDigits 10 exponent.natAbs

def signed (negative : Bool) (text : List Char) : String :=
  String.ofList (if negative then '-' :: text else text)

/-- How a finite double is written as a JSON number: whole numbers keep `.0`, and an exponent is
used from 1e16 up and below 1e-5. -/
def jsonText (x : Double) : String :=
  if x.isZero then signed x.negative ['0', '.', '0']
  else
    let short := shortest x
    let digits := dropTrailingZeros (Nat.toDigits 10 short.digits)
    let place := ((Nat.toDigits 10 short.digits).length : Int) + short.exponent
    if -5 < place ∧ place ≤ 16 then signed x.negative (positional digits place ['.', '0'])
    else signed x.negative (scientific digits (place - 1))

/-- How a finite double is written as a label: always positional, whole numbers without a
fraction. -/
def plainText (x : Double) : String :=
  if x.isZero then signed x.negative ['0']
  else
    let short := shortest x
    let digits := dropTrailingZeros (Nat.toDigits 10 short.digits)
    let place := ((Nat.toDigits 10 short.digits).length : Int) + short.exponent
    signed x.negative (positional digits place [])

end ApiManifest.Decimal
