import ApiManifest.Decimal.Double

/-!
What an unquoted scalar stands for: nothing, a boolean, a whole number in one of four bases, a
number with a fraction or exponent, or just its text.
-/

namespace ApiManifest.Yaml

inductive Plain where
  | null
  | bool (value : Bool)
  | int (value : Int)
  /-- A whole number that fits 128 bits but not 64. -/
  | wide
  | float (value : Double)
  | text
  deriving DecidableEq

namespace Plain

def isNull (text : List Char) : Bool :=
  text = "null".toList || text = "Null".toList || text = "NULL".toList || text = ['~']

def bool? (text : List Char) : Option Bool :=
  if text = "true".toList || text = "True".toList || text = "TRUE".toList then some true
  else if text = "false".toList || text = "False".toList || text = "FALSE".toList then some false
  else none

/-- The value of a digit in bases up to sixteen. -/
def digit? (c : Char) : Option Nat :=
  if '0' ≤ c ∧ c ≤ '9' then some (c.toNat - 48)
  else if 'a' ≤ c ∧ c ≤ 'f' then some (c.toNat - 87)
  else if 'A' ≤ c ∧ c ≤ 'F' then some (c.toNat - 55)
  else none

def digitsFrom (base value : Nat) : List Char → Option Nat
  | [] => some value
  | c :: rest =>
    match digit? c with
    | some d => if d < base then digitsFrom base (base * value + d) rest else none
    | none => none

/-- The number written by one or more digits. -/
def digits? (base : Nat) : List Char → Option Nat
  | [] => none
  | digits => digitsFrom base 0 digits

/-- Digits after a leading zero are text, so that codes such as `007` stay as written. -/
def isZeroPadded (text : List Char) : Bool :=
  let unsigned := match text with
    | '-' :: rest => rest
    | '+' :: rest => rest
    | _ => text
  match unsigned with
  | '0' :: second :: rest => (second :: rest).all Char.isDigit
  | _ => false

def magnitude? : List Char → Option Nat
  | '0' :: 'x' :: rest => digits? 16 rest
  | '0' :: 'o' :: rest => digits? 8 rest
  | '0' :: 'b' :: rest => digits? 2 rest
  | digits => digits? 10 digits

/-- The whole number a text writes, and whether it has a minus sign. -/
def integer? (text : List Char) : Option (Bool × Nat) :=
  if isZeroPadded text then none
  else match text with
    | '-' :: rest => (magnitude? rest).map (fun n => (true, n))
    | '+' :: rest => (magnitude? rest).map (fun n => (false, n))
    | _ => (magnitude? text).map (fun n => (false, n))

/-- The exponent after `e` or `E`: a sign and at least one digit. -/
def exponent? : List Char → Option Int
  | [] => some 0
  | mark :: rest =>
    if mark = 'e' ∨ mark = 'E' then
      match rest with
      | '-' :: digits => (digits? 10 digits).map (fun n => -(n : Int))
      | '+' :: digits => (digits? 10 digits).map (fun n => (n : Int))
      | digits => (digits? 10 digits).map (fun n => (n : Int))
    else none

/-- A decimal with digits before the point, after it, or both. -/
def unsignedFloat? (negative : Bool) (text : List Char) : Option Double :=
  let whole := text.takeWhile Char.isDigit
  let rest := text.dropWhile Char.isDigit
  let parts := match rest with
    | '.' :: after => (after.takeWhile Char.isDigit, after.dropWhile Char.isDigit)
    | _ => ([], rest)
  match digits? 10 (whole ++ parts.1), exponent? parts.2 with
  | some n, some e => some (Decimal.nearest negative n (e - (parts.1.length : Int)))
  | _, _ => none

def nan : Double :=
  ⟨UInt64.ofNat (2047 * Double.fractions + Double.fractions / 2)⟩

def isInfinity (text : List Char) : Bool :=
  text = ".inf".toList || text = ".Inf".toList || text = ".INF".toList

def isNan (text : List Char) : Bool :=
  text = ".nan".toList || text = ".NaN".toList || text = ".NAN".toList

/-- A number with a fraction or exponent. A decimal too large for a double is none. -/
def float? (text : List Char) : Option Double :=
  if isNan text then some nan
  else
    let parts := match text with
      | '-' :: rest => (true, rest)
      | '+' :: rest => (false, rest)
      | _ => (false, text)
    if isInfinity parts.2 then some (Double.infinity parts.1)
    else (unsignedFloat? parts.1 parts.2).filter Double.isFinite

/-- Whole numbers are those of 64 bits, signed or unsigned. -/
def ofInteger? (negative : Bool) (magnitude : Nat) : Option Plain :=
  if negative then
    if magnitude ≤ Nat.pow 2 63 then some (.int (-(magnitude : Int)))
    else if magnitude ≤ Nat.pow 2 127 then some .wide else none
  else if magnitude < Nat.pow 2 64 then some (.int magnitude)
  else if magnitude < Nat.pow 2 128 then some .wide else none

def number? (text : List Char) : Option Plain :=
  match (integer? text).bind (fun parts => ofInteger? parts.1 parts.2) with
  | some plain => some plain
  | none => if isZeroPadded text then none else (float? text).map .float

def resolve (text : List Char) : Plain :=
  if text.isEmpty || isNull text then .null
  else match bool? text with
    | some value => .bool value
    | none => (number? text).getD .text

end Plain

end ApiManifest.Yaml
