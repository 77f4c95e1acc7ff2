import ApiManifest.Proofs.JsonText

/-!
The JSON texts of RFC 8259 as trees. A tree keeps the white space between any two tokens, the
escapes of its strings and the digits of its numbers, so every JSON text is the text of one of
them, and what it denotes is read off the tree without a scan.
-/

namespace ApiManifest.JsonSyntax

open Yaml.Plain (digits?)

structure Space where
  chars : List Char
  white : ∀ c ∈ chars, Json.isSpace c

structure CodeUnit where
  digits : List Char
  value : Nat
  four : digits.length = 4
  spells : digits? 16 digits = some value

namespace CodeUnit

def isHigh (unit : CodeUnit) : Bool :=
  0xD800 ≤ unit.value && unit.value ≤ 0xDBFF

def isLow (unit : CodeUnit) : Bool :=
  0xDC00 ≤ unit.value && unit.value ≤ 0xDFFF

end CodeUnit

inductive Piece where
  | bare (c : Char) (stands : 0x20 ≤ c.toNat ∧ c ≠ '"' ∧ c ≠ '\\')
  | letter (c image : Char) (means : Json.letter? c = some image)
  | unit (unit : CodeUnit)

namespace Piece

def spelled : Piece → List Char
  | .bare c _ => [c]
  | .letter c _ _ => ['\\', c]
  | .unit code => '\\' :: 'u' :: code.digits

/-- The text that the pieces of a string denote. A half of a character that is not followed by
the other half denotes none. -/
def text? : List Piece → Option (List Char)
  | [] => some []
  | .bare c _ :: rest => (text? rest).map (c :: ·)
  | .letter _ image _ :: rest => (text? rest).map (image :: ·)
  | .unit first :: rest =>
    if first.isHigh then
      match rest with
      | .unit second :: rest =>
        if second.isLow then
          let code := 0x10000 + (first.value - 0xD800) * 0x400 + (second.value - 0xDC00)
          (text? rest).map (Char.ofNat code :: ·)
        else none
      | _ => none
    else if first.isLow then none
    else (text? rest).map (Char.ofNat first.value :: ·)

def quoted (pieces : List Piece) : List Char :=
  '"' :: (pieces.flatMap spelled ++ ['"'])

def string? (pieces : List Piece) : Option String :=
  (text? pieces).map String.ofList

end Piece

structure Digits where
  chars : List Char
  nonempty : chars ≠ []
  decimal : ∀ c ∈ chars, c.isDigit

structure Exponent where
  mark : Char
  sign : Option Bool
  digits : Digits
  marked : mark = 'e' ∨ mark = 'E'

namespace Exponent

def signed : Option Bool → List Char
  | none => []
  | some true => ['-']
  | some false => ['+']

def chars (exponent : Exponent) : List Char :=
  exponent.mark :: (signed exponent.sign ++ exponent.digits.chars)

def value (exponent : Exponent) : Int :=
  let magnitude := (digits? 10 exponent.digits.chars).getD 0
  if exponent.sign = some true then -(magnitude : Int) else magnitude

end Exponent

/-- A number; no zero stands in front of further digits. -/
structure Numeral where
  negative : Bool
  whole : Digits
  fraction : Option Digits
  exponent : Option Exponent
  unpadded : 1 < whole.chars.length → whole.chars.head? ≠ some '0'

namespace Numeral

def fractionDigits (numeral : Numeral) : List Char :=
  match numeral.fraction with
  | some digits => digits.chars
  | none => []

def fractionChars (numeral : Numeral) : List Char :=
  match numeral.fraction with
  | some digits => '.' :: digits.chars
  | none => []

def exponentChars (numeral : Numeral) : List Char :=
  match numeral.exponent with
  | some exponent => exponent.chars
  | none => []

def tail (numeral : Numeral) : List Char :=
  numeral.fractionChars ++ numeral.exponentChars

def unsigned (numeral : Numeral) : List Char :=
  numeral.whole.chars ++ numeral.tail

def chars (numeral : Numeral) : List Char :=
  if numeral.negative then '-' :: numeral.unsigned else numeral.unsigned

def isWhole (numeral : Numeral) : Bool :=
  numeral.fraction.isNone && numeral.exponent.isNone

def magnitude (numeral : Numeral) : Nat :=
  (digits? 10 numeral.whole.chars).getD 0

def integer (numeral : Numeral) : Int :=
  if numeral.negative then -(numeral.magnitude : Int) else numeral.magnitude

def double (numeral : Numeral) : Double :=
  Decimal.nearest numeral.negative
    ((digits? 10 (numeral.whole.chars ++ numeral.fractionDigits)).getD 0)
    ((numeral.exponent.elim 0 Exponent.value) - (numeral.fractionDigits.length : Int))

def value (numeral : Numeral) : Json :=
  if numeral.isWhole then .int numeral.integer else .float numeral.double

end Numeral

structure Key where
  pieces : List Piece
  after : Space
  beyond : Space

mutual

inductive Value where
  | null
  | bool (value : Bool)
  | number (numeral : Numeral)
  | string (pieces : List Piece)
  | emptyArray (inside : Space)
  | array (before : Space) (items : Items)
  | emptyObject (inside : Space)
  | object (before : Space) (members : Members)

/-- One or more items. White space may follow each item and each comma. -/
inductive Items where
  | last (value : Value) (after : Space)
  | more (value : Value) (after beyond : Space) (rest : Items)

inductive Members where
  | last (key : Key) (value : Value) (after : Space)
  | more (key : Key) (value : Value) (after beyond : Space) (rest : Members)

end

structure Text where
  lead : Space
  root : Value
  trail : Space

def flagChars (value : Bool) : List Char :=
  if value then "true".toList else "false".toList

section Spelling

variable (space : Space → List Char)

def Key.spelled (key : Key) : List Char :=
  Piece.quoted key.pieces ++ space key.after ++ ':' :: space key.beyond

mutual

/-- The characters of a value, where `space` writes its white space. -/
def Value.spelled : Value → List Char
  | .null => "null".toList
  | .bool value => flagChars value
  | .number numeral => numeral.chars
  | .string pieces => Piece.quoted pieces
  | .emptyArray inside => '[' :: (space inside ++ [']'])
  | .array before items => '[' :: (space before ++ items.spelled)
  | .emptyObject inside => '\x7b' :: (space inside ++ ['\x7d'])
  | .object before members => '\x7b' :: (space before ++ members.spelled)

def Items.spelled : Items → List Char
  | .last value after => value.spelled ++ (space after ++ [']'])
  | .more value after beyond rest =>
    value.spelled ++ (space after ++ ',' :: (space beyond ++ rest.spelled))

def Members.spelled : Members → List Char
  | .last key value after => key.spelled space ++ (value.spelled ++ (space after ++ ['\x7d']))
  | .more key value after beyond rest =>
    key.spelled space ++ (value.spelled ++ (space after ++ ',' :: (space beyond ++ rest.spelled)))

end

def Text.spelled (text : Text) : List Char :=
  space text.lead ++ (text.root.spelled space ++ space text.trail)

end Spelling

def Text.written (text : Text) : String :=
  String.ofList (text.spelled Space.chars)

section Denotation

def Items.toList : Items → List Value
  | .last value _ => [value]
  | .more value _ _ rest => value :: rest.toList

def Members.toList : Members → List (Key × Value)
  | .last key value _ => [(key, value)]
  | .more key value _ _ rest => (key, value) :: rest.toList

namespace Value

def isNull : Value → Bool
  | .null => true
  | _ => false

def flag? : Value → Option Bool
  | .bool value => some value
  | _ => none

def text? : Value → Option String
  | .string pieces => Piece.string? pieces
  | _ => none

def items? : Value → Option (List Value)
  | .emptyArray _ => some []
  | .array _ items => some items.toList
  | _ => none

def members? : Value → Option (List (String × Value))
  | .emptyObject _ => some []
  | .object _ members =>
    members.toList.mapM (fun member =>
      (Piece.string? member.1.pieces).map (fun key => (key, member.2)))
  | _ => none

end Value

mutual

/-- The value as data, if every string of it denotes a text. -/
def Value.json? : Value → Option Json
  | .null => some .null
  | .bool value => some (.bool value)
  | .number numeral => some numeral.value
  | .string pieces => (Piece.string? pieces).map .string
  | .emptyArray _ => some (.array [])
  | .array _ items => items.json?.map .array
  | .emptyObject _ => some (.ofEntries [])
  | .object _ members => members.json?.map .ofEntries

def Items.json? : Items → Option (List Json)
  | .last value _ => value.json?.map (fun first => [first])
  | .more value _ _ rest => do
    let first ← value.json?
    let others ← rest.json?
    some (first :: others)

def Members.json? : Members → Option (List (String × Json))
  | .last key value _ => do
    let name ← Piece.string? key.pieces
    let first ← value.json?
    some [(name, first)]
  | .more key value _ _ rest => do
    let name ← Piece.string? key.pieces
    let first ← value.json?
    let others ← rest.json?
    some ((name, first) :: others)

end

end Denotation

section Everywhere

variable (holds : Value → Prop)

mutual

/-- The property holds of the value and of all values inside it. -/
def Value.All : Value → Prop
  | .array before items => holds (.array before items) ∧ items.All
  | .object before members => holds (.object before members) ∧ members.All
  | value => holds value

def Items.All : Items → Prop
  | .last value _ => value.All
  | .more value _ _ rest => value.All ∧ rest.All

def Members.All : Members → Prop
  | .last _ value _ => value.All
  | .more _ value _ _ rest => value.All ∧ rest.All

end

section Deciding

variable [DecidablePred holds]

mutual

def Value.decideAll : (value : Value) → Decidable (value.All holds)
  | .array before items =>
    have := items.decideAll
    inferInstanceAs (Decidable (holds (.array before items) ∧ items.All holds))
  | .object before members =>
    have := members.decideAll
    inferInstanceAs (Decidable (holds (.object before members) ∧ members.All holds))
  | .null | .bool _ | .number _ | .string _ | .emptyArray _ | .emptyObject _ =>
    inferInstanceAs (Decidable (holds _))

def Items.decideAll : (items : Items) → Decidable (items.All holds)
  | .last value _ => value.decideAll
  | .more value _ _ rest =>
    have := value.decideAll
    have := rest.decideAll
    inferInstanceAs (Decidable (value.All holds ∧ rest.All holds))

def Members.decideAll : (members : Members) → Decidable (members.All holds)
  | .last _ value _ => value.decideAll
  | .more _ value _ _ rest =>
    have := value.decideAll
    have := rest.decideAll
    inferInstanceAs (Decidable (value.All holds ∧ rest.All holds))

end

instance : DecidablePred (Value.All holds) := Value.decideAll holds

end Deciding

variable {holds}

theorem Items.all_toList (items : Items) (all : items.All holds) :
    ∀ value ∈ items.toList, value.All holds := by
  match items with
  | .last value after => simpa [Items.toList, Items.All] using all
  | .more value after beyond rest =>
    intro other member
    rcases List.mem_cons.1 member with rfl | later
    · exact all.1
    · exact rest.all_toList all.2 other later

theorem Members.all_toList (members : Members) (all : members.All holds) :
    ∀ member ∈ members.toList, member.2.All holds := by
  match members with
  | .last key value after => simpa [Members.toList, Members.All] using all
  | .more key value after beyond rest =>
    intro other member
    rcases List.mem_cons.1 member with rfl | later
    · exact all.1
    · exact rest.all_toList all.2 other later

end Everywhere

mutual

def Value.depth : Value → Nat
  | .emptyArray _ => 1
  | .array _ items => items.depth + 1
  | .emptyObject _ => 1
  | .object _ members => members.depth + 1
  | _ => 0

def Items.depth : Items → Nat
  | .last value _ => value.depth
  | .more value _ _ rest => max value.depth rest.depth

def Members.depth : Members → Nat
  | .last _ value _ => value.depth
  | .more _ value _ _ rest => max value.depth rest.depth

end

theorem Items.depth_le (items : Items) : ∀ value ∈ items.toList, value.depth ≤ items.depth := by
  match items with
  | .last value after => simp [Items.toList, Items.depth]
  | .more value after beyond rest =>
    intro other member
    rw [Items.depth]
    rcases List.mem_cons.1 member with rfl | later
    · exact Nat.le_max_left _ _
    · exact Nat.le_trans (rest.depth_le other later) (Nat.le_max_right _ _)

theorem Members.depth_le (members : Members) :
    ∀ member ∈ members.toList, member.2.depth ≤ members.depth := by
  match members with
  | .last key value after => simp [Members.toList, Members.depth]
  | .more key value after beyond rest =>
    intro other member
    rw [Members.depth]
    rcases List.mem_cons.1 member with rfl | later
    · exact Nat.le_max_left _ _
    · exact Nat.le_trans (rest.depth_le other later) (Nat.le_max_right _ _)

/-- No two members of an object stand under the same key. -/
def Value.keysDiffer : Value → Prop
  | .object _ members => (members.toList.map (fun member => Piece.text? member.1.pieces)).Nodup
  | _ => True

instance : DecidablePred Value.keysDiffer
  | .object _ members => inferInstanceAs (Decidable
    (members.toList.map (fun member => Piece.text? member.1.pieces)).Nodup)
  | .null | .bool _ | .number _ | .string _ | .emptyArray _ | .array .. | .emptyObject _ =>
    inferInstanceAs (Decidable True)

end ApiManifest.JsonSyntax
