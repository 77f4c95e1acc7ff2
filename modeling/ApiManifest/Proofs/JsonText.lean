import ApiManifest.Proofs.Digits
import ApiManifest.Wire.Json

/-!
What a JSON text says, by the grammar of RFC 8259, and that the text of a value says what the value
is as JSON. The reader takes white space between any two tokens, all escapes of a string and all
forms of a number, so it is not made for the text that is written here.
-/

namespace ApiManifest.Json

open Yaml.Plain (digits? digit?)

def isSpace (c : Char) : Bool :=
  c = ' ' || c = '\t' || c = '\n' || c = '\r'

def skipSpace (text : List Char) : List Char :=
  text.dropWhile isSpace

def unit? : List Char → Option (Nat × List Char)
  | a :: b :: c :: d :: rest => (digits? 16 [a, b, c, d]).map (fun n => (n, rest))
  | _ => none

def letter? (c : Char) : Option Char :=
  match c with
  | '"' => some '"'
  | '\\' => some '\\'
  | '/' => some '/'
  | 'b' => some '\x08'
  | 'f' => some '\x0c'
  | 'n' => some '\n'
  | 'r' => some '\r'
  | 't' => some '\t'
  | _ => none

/-- The character of an escape after its backslash. Characters beyond the first plane take two
units, the first of them a high surrogate and the second a low one. -/
def escape? : List Char → Option (Char × List Char)
  | 'u' :: text => do
    let (first, rest) ← unit? text
    if first < 0xD800 ∨ 0xDFFF < first then some (Char.ofNat first, rest)
    else if 0xDC00 ≤ first then none
    else match rest with
      | '\\' :: 'u' :: text => do
        let (second, rest) ← unit? text
        if 0xDC00 ≤ second ∧ second ≤ 0xDFFF then
          some (Char.ofNat (0x10000 + (first - 0xD800) * 0x400 + (second - 0xDC00)), rest)
        else none
      | _ => none
  | c :: rest => (letter? c).map (fun image => (image, rest))
  | [] => none

def string? : Nat → List Char → Option (List Char × List Char)
  | 0, _ => none
  | _ + 1, [] => none
  | fuel + 1, c :: rest =>
    if c = '"' then some ([], rest)
    else if c = '\\' then do
      let (image, rest) ← escape? rest
      let (text, rest) ← string? fuel rest
      some (image :: text, rest)
    else if c.toNat < 0x20 then none
    else do
      let (text, rest) ← string? fuel rest
      some (c :: text, rest)

def splitDigits (text : List Char) : List Char × List Char :=
  (text.takeWhile Char.isDigit, text.dropWhile Char.isDigit)

def fraction? : List Char → Option (List Char × List Char)
  | '.' :: text =>
    let (digits, rest) := splitDigits text
    if digits.isEmpty then none else some (digits, rest)
  | text => some ([], text)

def exponent? : List Char → Option (Option Int × List Char)
  | c :: text =>
    if c = 'e' ∨ c = 'E' then
      let (negative, text) := match text with
        | '-' :: rest => (true, rest)
        | '+' :: rest => (false, rest)
        | _ => (false, text)
      let (digits, rest) := splitDigits text
      (digits? 10 digits).map (fun n => (some (if negative then -(n : Int) else n), rest))
    else some (none, c :: text)
  | [] => some (none, [])

/-- A number without its sign: whole if it has neither a fraction nor an exponent. -/
def unsigned? (negative : Bool) (text : List Char) : Option (Json × List Char) := do
  let (whole, rest) := splitDigits text
  if 1 < whole.length && whole.head? = some '0' then none
  else
    let n ← digits? 10 whole
    let (fraction, rest) ← fraction? rest
    let (exponent, rest) ← exponent? rest
    if fraction.isEmpty && exponent.isNone then
      some (.int (if negative then -(n : Int) else n), rest)
    else
      let digits ← digits? 10 (whole ++ fraction)
      some (.float (Decimal.nearest negative digits
        (exponent.getD 0 - (fraction.length : Int))), rest)

def number? (text : List Char) : Option (Json × List Char) :=
  match text with
  | '-' :: rest => unsigned? true rest
  | _ => unsigned? false text

def name? (text : List Char) : Option (Json × List Char) :=
  if "true".toList.isPrefixOf text then some (.bool true, text.drop 4)
  else if "false".toList.isPrefixOf text then some (.bool false, text.drop 5)
  else if "null".toList.isPrefixOf text then some (.null, text.drop 4)
  else none

mutual

def value? : Nat → List Char → Option (Json × List Char)
  | 0, _ => none
  | fuel + 1, text =>
    match skipSpace text with
    | '"' :: rest => do
      let (text, rest) ← string? (rest.length + 1) rest
      some (.string (String.ofList text), rest)
    | '[' :: rest =>
      match skipSpace rest with
      | ']' :: rest => some (.array [], rest)
      | rest => do
        let (items, rest) ← items? fuel rest
        some (.array items, rest)
    | '\x7b' :: rest =>
      match skipSpace rest with
      | '\x7d' :: rest => some (.ofEntries [], rest)
      | rest => do
        let (entries, rest) ← entries? fuel rest
        some (.ofEntries entries, rest)
    | rest => (name? rest).or (number? rest)

def items? : Nat → List Char → Option (List Json × List Char)
  | 0, _ => none
  | fuel + 1, text => do
    let (item, rest) ← value? fuel text
    match skipSpace rest with
    | ',' :: rest => do
      let (items, rest) ← items? fuel rest
      some (item :: items, rest)
    | ']' :: rest => some ([item], rest)
    | _ => none

def entries? : Nat → List Char → Option (List (String × Json) × List Char)
  | 0, _ => none
  | fuel + 1, text =>
    match skipSpace text with
    | '"' :: rest => do
      let (key, rest) ← string? (rest.length + 1) rest
      match skipSpace rest with
      | ':' :: rest => do
        let (value, rest) ← value? fuel rest
        match skipSpace rest with
        | ',' :: rest => do
          let (entries, rest) ← entries? fuel rest
          some ((String.ofList key, value) :: entries, rest)
        | '\x7d' :: rest => some ([(String.ofList key, value)], rest)
        | _ => none
      | _ => none
    | _ => none

end

/-- The value of a whole text. Of equal keys the last one counts. -/
def parse? (text : String) : Option Json :=
  match value? (2 * text.length + 2) text.toList with
  | some (value, rest) => if (skipSpace rest).isEmpty then some value else none
  | none => none

theorem unit?_hexDigits {n : Nat} (small : n < 16 ^ 4) (rest : List Char) :
    unit? (hexDigits 4 n ++ rest) = some (n, rest) := by
  have value := Yaml.Plain.digits?_hexDigits id (by decide) 4 n
  have length := length_hexDigits (by decide) small
  rw [List.map_id] at value
  obtain ⟨a, b, c, d, digits⟩ : ∃ a b c d, hexDigits 4 n = [a, b, c, d] := by
    rcases h : hexDigits 4 n with _ | ⟨a, _ | ⟨b, _ | ⟨c, _ | ⟨d, _ | ⟨e, more⟩⟩⟩⟩⟩
    all_goals simp_all
  rw [digits] at value ⊢
  simp [unit?, value]

/-- A character of a string stands as it is, or an escape stands for it. -/
theorem escapeChar_cases (c : Char) :
    (escapeChar c = [c] ∧ c ≠ '"' ∧ c ≠ '\\' ∧ ¬ c.toNat < 0x20) ∨
      ∃ code, escapeChar c = '\\' :: code ∧ ∀ rest, escape? (code ++ rest) = some (c, rest) := by
  unfold escapeChar
  split
  case h_8 =>
    split
    · next small =>
      right
      refine ⟨_, rfl, fun rest => ?_⟩
      have read := unit?_hexDigits (show c.toNat < 16 ^ 4 by omega) rest
      simp only [List.cons_append, escape?, read, Option.bind_eq_bind, Option.bind_some]
      rw [if_pos (.inl (by omega))]
      simp
    · next large =>
      left
      refine ⟨rfl, ?_, ?_, large⟩ <;> simp_all
  all_goals
    right
    exact ⟨_, rfl, fun rest => rfl⟩

theorem string?_quoted (text rest : List Char) {fuel : Nat} (enough : text.length < fuel) :
    string? fuel (text.flatMap escapeChar ++ '"' :: rest) = some (text, rest) := by
  induction text generalizing fuel with
  | nil =>
    obtain ⟨fuel, rfl⟩ : ∃ n, fuel = n + 1 := ⟨fuel - 1, by omega⟩
    simp [string?]
  | cons c text ih =>
    obtain ⟨fuel, rfl⟩ : ∃ n, fuel = n + 1 := ⟨fuel - 1, by omega⟩
    have later := @ih fuel (by simpa using enough)
    rcases escapeChar_cases c with ⟨same, quote, backslash, shown⟩ | ⟨code, same, read⟩
    · simp [string?, same, quote, backslash, shown, later]
    · simp [string?, same, read, later]

def EndsValue (rest : List Char) : Prop :=
  ∀ c ∈ rest.head?, c = ',' ∨ c = '\n'

theorem splitDigits_eq {digits rest : List Char} (all : ∀ c ∈ digits, c.isDigit)
    (stop : ∀ c ∈ rest.head?, c.isDigit = false) : splitDigits (digits ++ rest) = (digits, rest) := by
  rw [splitDigits, takeWhile_run all stop, dropWhile_run all stop]

theorem unsigned?_digits (negative : Bool) (n : Nat) {rest : List Char} (ends : EndsValue rest) :
    unsigned? negative (Nat.toDigits 10 n ++ rest)
      = some (.int (if negative then -(n : Int) else n), rest) := by
  have stop : ∀ c ∈ rest.head?, c.isDigit = false := by
    intro c head
    rcases ends c head with rfl | rfl <;> decide
  have split_ := splitDigits_eq (fun c member =>
    Nat.isDigit_of_mem_toDigits (b := 10) (n := n) (by decide) (by decide) member) stop
  have read := Yaml.Plain.digits?_decimal n
  have noZero : ¬ (1 < (Nat.toDigits 10 n).length ∧ (Nat.toDigits 10 n).head? = some '0') := by
    rintro ⟨long, zero⟩
    rcases Nat.eq_zero_or_pos n with rfl | positive
    · simp at long
    · exact Yaml.Plain.head_toDigits positive zero
  have noFraction : fraction? rest = some ([], rest) := by
    cases rest with
    | nil => rfl
    | cons c rest =>
      rcases ends c rfl with rfl | rfl <;> rfl
  have noExponent : exponent? rest = some (none, rest) := by
    cases rest with
    | nil => rfl
    | cons c rest =>
      rcases ends c rfl with rfl | rfl <;> simp [exponent?]
  simp [unsigned?, split_, noZero, read, noFraction, noExponent]

theorem number?_int (value : Int) {rest : List Char} (ends : EndsValue rest) :
    number? ((toString value).toList ++ rest) = some (.int value, rest) := by
  obtain ⟨n, ⟨rfl, written⟩ | ⟨rfl, written⟩⟩ := int_cases value
  · have unsigned := unsigned?_digits false n ends
    rw [written]
    unfold number?
    split
    · next spelled =>
      have digit : '-' ∈ Nat.toDigits 10 n := by
        obtain ⟨c, digits, same⟩ := List.exists_cons_of_ne_nil (Nat.toDigits_ne_nil (b := 10) (n := n))
        rw [same] at spelled ⊢
        simp [(List.cons.inj spelled).1]
      exact absurd (Nat.isDigit_of_mem_toDigits (by decide) (by decide) digit) (by decide)
    · exact unsigned
  · rw [written]
    exact unsigned?_digits true n ends

theorem skipSpace_start {c : Char} (other : isSpace c = false) (rest : List Char) :
    skipSpace (c :: rest) = c :: rest := by
  simp [skipSpace, other]

theorem skipSpace_break (depth : Nat) (text : List Char) :
    skipSpace (Wire.jsonBreak depth ++ text) = skipSpace text := by
  have spaces : ∀ c ∈ Wire.jsonBreak depth, isSpace c := by
    intro c member
    rcases List.mem_cons.1 member with rfl | later
    · decide
    · obtain rfl := List.eq_of_mem_replicate later
      decide
  rw [skipSpace, List.dropWhile_append_of_pos spaces, skipSpace]

theorem value?_skip {first second : List Char} (same : skipSpace first = skipSpace second)
    (fuel : Nat) : value? fuel first = value? fuel second := by
  cases fuel <;> simp [value?, same]

theorem entries?_skip {first second : List Char} (same : skipSpace first = skipSpace second)
    (fuel : Nat) : entries? fuel first = entries? fuel second := by
  cases fuel <;> simp [entries?, same]

variable {rest : List Char} {fuel : Nat}

theorem value?_bool (value : Bool) :
    value? (fuel + 1) ((if value then "true" else "false").toList ++ rest)
      = some (.bool value, rest) := by
  cases value <;> simp [value?, skipSpace, isSpace, name?]

theorem value?_number {c : Char} {text : List Char} {result : Json × List Char}
    (kind : c.isDigit ∨ c = '-') (read : number? (c :: text) = some result) :
    value? (fuel + 1) (c :: text) = some result := by
  have other : ∀ d : Char, d.isDigit = false → d ≠ '-' → c ≠ d := by
    rintro d noDigit noSign rfl
    rcases kind with digit | sign
    · rw [noDigit] at digit
      cases digit
    · exact noSign sign
  have space : isSpace c = false := by
    simp [isSpace, other ' ', other '\t', other '\n', other '\r']
  have noName : name? (c :: text) = none := by
    simp [name?, Ne.symm (other 't' (by decide) (by decide)),
      Ne.symm (other 'f' (by decide) (by decide)), Ne.symm (other 'n' (by decide) (by decide))]
  rw [value?, skipSpace_start space]
  split
  · next same => exact absurd (List.cons.inj same).1 (other _ (by decide) (by decide))
  · next same => exact absurd (List.cons.inj same).1 (other _ (by decide) (by decide))
  · next same => exact absurd (List.cons.inj same).1 (other _ (by decide) (by decide))
  · rw [noName, read]
    rfl

theorem value?_int (value : Int) (ends : EndsValue rest) :
    value? (fuel + 1) ((toString value).toList ++ rest) = some (.int value, rest) := by
  have number := number?_int value ends
  obtain ⟨c, digits, spelled, kind⟩ : ∃ c digits, (toString value).toList = c :: digits ∧
      (c.isDigit ∨ c = '-') := by
    obtain ⟨n, ⟨-, written⟩ | ⟨-, written⟩⟩ := int_cases value
    · obtain ⟨c, digits, same⟩ := List.exists_cons_of_ne_nil (Nat.toDigits_ne_nil (b := 10) (n := n))
      refine ⟨c, digits, written.trans same, .inl ?_⟩
      exact Nat.isDigit_of_mem_toDigits (b := 10) (n := n) (by decide) (by decide) (by simp [same])
    · exact ⟨_, _, written, .inr rfl⟩
  rw [spelled] at number ⊢
  exact value?_number kind number

theorem toList_quote (text : String) :
    (quote text).toList = '"' :: (text.toList.flatMap escapeChar ++ ['"']) := by
  simp [quote]

theorem string?_quote (text : String) :
    string? ((text.toList.flatMap escapeChar ++ '"' :: rest).length + 1)
      (text.toList.flatMap escapeChar ++ '"' :: rest) = some (text.toList, rest) := by
  apply string?_quoted
  have long (chars : List Char) : chars.length ≤ (chars.flatMap escapeChar).length := by
    induction chars with
    | nil => simp
    | cons c chars ih =>
      have some_ : 0 < (escapeChar c).length := by
        rcases escapeChar_cases c with ⟨same, -⟩ | ⟨code, same, -⟩ <;> simp [same]
      simp only [List.flatMap_cons, List.length_append, List.length_cons]
      omega
  have enough := long text.toList
  simp only [List.length_append, List.length_cons]
  omega

theorem value?_string (text : String) :
    value? (fuel + 1) ((quote text).toList ++ rest) = some (.string text, rest) := by
  have read := @string?_quote rest text
  rw [toList_quote, List.cons_append, List.append_assoc, List.singleton_append, value?,
    skipSpace_start (by decide)]
  simp only [read, Option.bind_eq_bind, Option.bind_some, String.ofList_toList]

theorem value?_emptyList : value? (fuel + 1) ("[]".toList ++ rest) = some (.array [], rest) := by
  simp [value?, skipSpace_start, isSpace]

theorem value?_emptyRecord :
    value? (fuel + 1) ("\x7b\x7d".toList ++ rest) = some (.ofEntries [], rest) := by
  simp [value?, skipSpace_start, isSpace]

theorem value?_list {c : Char} {depth : Nat} {text : List Char} {items : List Json}
    (bracket : c ≠ ']') (space : isSpace c = false)
    (read : items? fuel (c :: text) = some (items, rest)) :
    value? (fuel + 1) ('[' :: (Wire.jsonBreak depth ++ c :: text)) = some (.array items, rest) := by
  rw [value?, skipSpace_start (by decide)]
  simp only [skipSpace_break, skipSpace_start space]
  split
  · next same => exact absurd (List.cons.inj same).1 bracket
  · simp [read]

theorem value?_record {depth : Nat} {text : List Char} {entries : List (String × Json)}
    (read : entries? fuel ('"' :: text) = some (entries, rest)) :
    value? (fuel + 1) ('\x7b' :: (Wire.jsonBreak depth ++ '"' :: text))
      = some (.ofEntries entries, rest) := by
  rw [value?, skipSpace_start (by decide)]
  simp only [skipSpace_break, skipSpace_start (show isSpace '"' = false by decide)]
  simp [read]

theorem items?_last {text : List Char} {item : Json} {depth : Nat}
    (read : value? fuel text = some (item, Wire.jsonBreak depth ++ ']' :: rest)) :
    items? (fuel + 1) text = some ([item], rest) := by
  simp only [items?, read, Option.bind_eq_bind, Option.bind_some, skipSpace_break]
  rw [skipSpace_start (by decide)]
  rfl

theorem items?_more {text later : List Char} {item : Json} {items : List Json}
    (read : value? fuel text = some (item, ',' :: later))
    (others : items? fuel later = some (items, rest)) :
    items? (fuel + 1) text = some (item :: items, rest) := by
  simp only [items?, read, Option.bind_eq_bind, Option.bind_some]
  rw [skipSpace_start (by decide)]
  simp [others]

theorem entries?_key (key : String) (text : List Char) :
    entries? (fuel + 1) (Wire.jsonKey key ++ text) = (value? fuel text).bind (fun found =>
      match skipSpace found.2 with
      | ',' :: rest => (entries? fuel rest).bind (fun later =>
        some ((key, found.1) :: later.1, later.2))
      | '\x7d' :: rest => some ([(key, found.1)], rest)
      | _ => none) := by
  have named := @string?_quote (':' :: ' ' :: text) key
  have blank : value? fuel (' ' :: text) = value? fuel text :=
    value?_skip (by simp [skipSpace, isSpace]) fuel
  have spelled : Wire.jsonKey key ++ text
      = '"' :: (key.toList.flatMap escapeChar ++ '"' :: ':' :: ' ' :: text) := by
    simp [Wire.jsonKey, toList_quote]
  rw [spelled, entries?, skipSpace_start (by decide)]
  simp only [named, Option.bind_eq_bind, Option.bind_some, String.ofList_toList]
  rw [skipSpace_start (by decide)]
  simp only [blank]

theorem entries?_last {key : String} {text : List Char} {value : Json} {depth : Nat}
    (read : value? fuel text = some (value, Wire.jsonBreak depth ++ '\x7d' :: rest)) :
    entries? (fuel + 1) (Wire.jsonKey key ++ text) = some ([(key, value)], rest) := by
  rw [entries?_key, read, Option.bind_some, skipSpace_break, skipSpace_start (by decide)]
  rfl

theorem entries?_more {key : String} {text later : List Char} {value : Json}
    {entries : List (String × Json)} (read : value? fuel text = some (value, ',' :: later))
    (others : entries? fuel later = some (entries, rest)) :
    entries? (fuel + 1) (Wire.jsonKey key ++ text) = some ((key, value) :: entries, rest) := by
  rw [entries?_key, read, Option.bind_some, skipSpace_start (by decide)]
  simp [others]

end ApiManifest.Json

namespace ApiManifest.Wire

open Json (value? items? entries? EndsValue)

/-- The value is read from its text, at any depth, up to the end of its line. -/
structure JsonRead (value : Wire) : Prop where
  read : ∀ (depth fuel : Nat) (rest : List Char), 2 * (jsonValue depth value).length ≤ fuel →
    EndsValue rest → value? fuel (jsonValue depth value ++ rest) = some (value.toJson, rest)

structure JsonItemsRead (items : List Wire) : Prop where
  read : ∀ (depth fuel : Nat) (item : Json) (text rest : List Char),
    2 * (jsonItems depth items).length < fuel →
    value? fuel text = some (item, jsonItems depth items ++ (jsonBreak (depth - 1) ++ ']' :: rest)) →
    items? (fuel + 1) text = some (item :: itemsToJson items, rest)

structure JsonEntriesRead (fields : List (String × Wire)) : Prop where
  read : ∀ (depth fuel : Nat) (key : String) (value : Json) (text rest : List Char),
    2 * (jsonEntries depth fields).length < fuel →
    value? fuel text
      = some (value, jsonEntries depth fields ++ (jsonBreak (depth - 1) ++ '\x7d' :: rest)) →
    entries? (fuel + 1) (jsonKey key ++ text) = some ((key, value) :: fieldsToJson fields, rest)

theorem jsonItems_ends (depth : Nat) (items : List Wire) (rest : List Char) :
    EndsValue (jsonItems depth items ++ (jsonBreak (depth - 1) ++ rest)) := by
  cases items <;> simp [EndsValue, jsonItems, jsonBreak]

theorem jsonEntries_ends (depth : Nat) (fields : List (String × Wire)) (rest : List Char) :
    EndsValue (jsonEntries depth fields ++ (jsonBreak (depth - 1) ++ rest)) := by
  rcases fields with _ | ⟨⟨key, value⟩, fields⟩ <;> simp [EndsValue, jsonEntries, jsonBreak]

theorem jsonValue_starts (depth : Nat) (value : Wire) :
    ∃ c text, jsonValue depth value = c :: text ∧ c ≠ ']' ∧ Json.isSpace c = false := by
  rcases value with value | value | text | ⟨_ | ⟨item, items⟩⟩ | ⟨_ | ⟨⟨key, value⟩, fields⟩⟩ |
    ⟨tag, payload⟩
  · cases value <;> exact ⟨_, _, rfl, by decide, by decide⟩
  · obtain ⟨n, ⟨-, written⟩ | ⟨-, written⟩⟩ := int_cases value
    · obtain ⟨c, digits, same⟩ := List.exists_cons_of_ne_nil (Nat.toDigits_ne_nil (b := 10) (n := n))
      have digit : c.isDigit :=
        Nat.isDigit_of_mem_toDigits (b := 10) (n := n) (by decide) (by decide) (by simp [same])
      have other : ∀ d : Char, d.isDigit = false → c ≠ d := by
        rintro d noDigit rfl
        rw [noDigit] at digit
        cases digit
      refine ⟨c, digits, by rw [jsonValue, written, same], other _ (by decide), ?_⟩
      simp [Json.isSpace, other ' ', other '\t', other '\n', other '\r']
    · exact ⟨_, _, by rw [jsonValue, written], by decide, by decide⟩
  · exact ⟨_, _, by rw [jsonValue, Json.toList_quote], by decide, by decide⟩
  all_goals exact ⟨_, _, rfl, by decide, by decide⟩

theorem json_list {item : Wire} {items : List Wire} (first : JsonRead item)
    (others : JsonItemsRead items) : JsonRead (.list (item :: items)) := by
  constructor
  intro depth fuel rest enough ends
  simp only [jsonValue, List.length_cons, List.length_append] at enough
  obtain ⟨fuel, rfl⟩ : ∃ n, fuel = n + 2 := ⟨fuel - 2, by omega⟩
  obtain ⟨c, text, spelled, bracket, space⟩ := jsonValue_starts (depth + 1) item
  have item_ := first.read (depth + 1) fuel
    (jsonItems depth items ++ (jsonBreak (depth - 1) ++ ']' :: rest)) (by omega)
    (jsonItems_ends depth items _)
  have read := others.read depth fuel _ _ rest (by omega) item_
  rw [spelled] at read
  simp only [jsonValue, List.cons_append, List.append_assoc, spelled]
  exact Json.value?_list bracket space read

theorem jsonKey_eq (key : String) (text : List Char) : ∃ spelled, jsonKey key ++ text = '"' :: spelled := by
  simp [jsonKey, Json.toList_quote]

/-- A record with at least one entry; a variant is written as a record with one. -/
theorem json_record {key : String} {value : Wire} {fields : List (String × Wire)}
    (first : JsonRead value) (others : JsonEntriesRead fields) :
    JsonRead (.record ((key, value) :: fields)) := by
  constructor
  intro depth fuel rest enough ends
  simp only [jsonValue, List.length_cons, List.length_append] at enough
  obtain ⟨fuel, rfl⟩ : ∃ n, fuel = n + 2 := ⟨fuel - 2, by omega⟩
  have value_ := first.read (depth + 1) fuel
    (jsonEntries depth fields ++ (jsonBreak (depth - 1) ++ '\x7d' :: rest)) (by omega)
    (jsonEntries_ends depth fields _)
  have read := others.read depth fuel key _ _ rest (by omega) value_
  obtain ⟨spelled, quoted⟩ := jsonKey_eq key (jsonValue (depth + 1) value
    ++ (jsonEntries depth fields ++ (jsonBreak (depth - 1) ++ '\x7d' :: rest)))
  rw [quoted] at read
  simp only [jsonValue, List.cons_append, List.append_assoc, List.nil_append, quoted]
  exact Json.value?_record read

theorem jsonItems_cons {next : Wire} {items : List Wire} (first : JsonRead next)
    (others : JsonItemsRead items) : JsonItemsRead (next :: items) := by
  constructor
  intro depth fuel item text rest enough read
  simp only [jsonItems, List.length_cons, List.length_append] at enough
  obtain ⟨fuel, rfl⟩ : ∃ n, fuel = n + 1 := ⟨fuel - 1, by omega⟩
  have next_ := first.read (depth + 1) fuel
    (jsonItems depth items ++ (jsonBreak (depth - 1) ++ ']' :: rest)) (by omega)
    (jsonItems_ends depth items _)
  rw [← Json.value?_skip (Json.skipSpace_break depth _)] at next_
  have later := others.read depth fuel _ _ rest (by omega) next_
  simp only [jsonItems, List.cons_append, List.append_assoc] at read
  exact Json.items?_more read later

theorem jsonEntries_cons {name : String} {next : Wire} {fields : List (String × Wire)}
    (first : JsonRead next) (others : JsonEntriesRead fields) :
    JsonEntriesRead ((name, next) :: fields) := by
  constructor
  intro depth fuel key value text rest enough read
  simp only [jsonEntries, List.length_cons, List.length_append] at enough
  obtain ⟨fuel, rfl⟩ : ∃ n, fuel = n + 1 := ⟨fuel - 1, by omega⟩
  have next_ := first.read (depth + 1) fuel
    (jsonEntries depth fields ++ (jsonBreak (depth - 1) ++ '\x7d' :: rest)) (by omega)
    (jsonEntries_ends depth fields _)
  have later := others.read depth fuel name _ _ rest (by omega) next_
  rw [← Json.entries?_skip (Json.skipSpace_break depth _)] at later
  simp only [jsonEntries, List.cons_append, List.append_assoc] at read
  exact Json.entries?_more read later

theorem jsonItems_nil : JsonItemsRead [] := by
  constructor
  intro depth fuel item text rest enough read
  exact Json.items?_last read

theorem jsonEntries_nil : JsonEntriesRead [] := by
  constructor
  intro depth fuel key value text rest enough read
  exact Json.entries?_last read

theorem json_variant {tag : String} {payload : Wire} (carried : JsonRead payload) :
    JsonRead (.variant tag payload) := by
  have record : JsonRead (.record [(tag, payload)]) := json_record carried jsonEntries_nil
  constructor
  intro depth fuel rest enough ends
  have text : jsonValue depth (.variant tag payload) = jsonValue depth (.record [(tag, payload)]) := by
    simp [jsonValue, jsonEntries]
  rw [text] at enough ⊢
  exact record.read depth fuel rest enough ends

theorem json_scalar {value : Wire}
    (read : ∀ depth fuel rest, EndsValue rest →
      value? (fuel + 1) (jsonValue depth value ++ rest) = some (value.toJson, rest)) :
    JsonRead value := by
  constructor
  intro depth fuel rest enough ends
  obtain ⟨c, text, spelled, -⟩ := jsonValue_starts depth value
  simp only [spelled, List.length_cons] at enough
  obtain ⟨fuel, rfl⟩ : ∃ n, fuel = n + 1 := ⟨fuel - 1, by omega⟩
  exact read depth fuel rest ends

mutual

theorem json_read (value : Wire) : JsonRead value := by
  rcases value with value | value | text | ⟨_ | ⟨item, items⟩⟩ | ⟨_ | ⟨⟨key, value⟩, fields⟩⟩ |
    ⟨tag, payload⟩
  · exact json_scalar (fun _ _ _ _ => Json.value?_bool value)
  · exact json_scalar (fun _ _ _ ends => Json.value?_int value ends)
  · exact json_scalar (fun _ _ _ _ => Json.value?_string text)
  · exact json_scalar (fun _ _ _ _ => Json.value?_emptyList)
  · exact json_list (json_read item) (jsonItems_read items)
  · exact json_scalar (fun _ _ _ _ => Json.value?_emptyRecord)
  · exact json_record (json_read value) (jsonEntries_read fields)
  · exact json_variant (json_read payload)

theorem jsonItems_read (items : List Wire) : JsonItemsRead items := by
  cases items with
  | nil => exact jsonItems_nil
  | cons next items => exact jsonItems_cons (json_read next) (jsonItems_read items)

theorem jsonEntries_read (fields : List (String × Wire)) : JsonEntriesRead fields := by
  rcases fields with _ | ⟨⟨name, next⟩, fields⟩
  · exact jsonEntries_nil
  · exact jsonEntries_cons (json_read next) (jsonEntries_read fields)

end

/-- The JSON text of a value says what the value is as JSON. -/
theorem parse?_toJsonText (value : Wire) : Json.parse? (toJsonText value) = some value.toJson := by
  have read := (json_read value).read 1 (2 * (toJsonText value).length + 2) ['\n']
    (by simp [toJsonText]; omega) (by simp [EndsValue])
  have text : (toJsonText value).toList = jsonValue 1 value ++ ['\n'] := by
    simp [toJsonText]
  rw [Json.parse?, text, read]
  rfl

end ApiManifest.Wire
