import ApiManifest.Codec.Fields

/-!
Codecs: how the values of a type are read and how they are written. A codec for a record is put
together from the codecs of its fields, one for a choice between variants from those of what the
variants carry.
-/

namespace ApiManifest

structure Codec (α : Type) where
  read : Reader α
  write : α → Wire

namespace Codec

variable {α β : Type}

def text : Codec String := ⟨Reader.text, .string⟩

def flag : Codec Bool := ⟨Reader.flag, .bool⟩

def int32 : Codec Int32 :=
  ⟨Reader.map Int32.ofInt (Reader.int ⟨"i32", -0x80000000, 0x7fffffff⟩), fun n => .int n.toInt⟩

def int64 : Codec Int64 :=
  ⟨Reader.map Int64.ofInt (Reader.int ⟨"i64", -0x8000000000000000, 0x7fffffffffffffff⟩),
    fun n => .int n.toInt⟩

def nat32 : Codec UInt32 :=
  ⟨Reader.map UInt32.ofInt (Reader.int ⟨"u32", 0, 0xffffffff⟩), fun n => .int n.toNat⟩

def list (item : Codec α) : Codec (List α) :=
  ⟨Reader.list item.read, fun items => .list (items.map item.write)⟩

def sorted (item : Codec α) : Codec (SortedDict α) :=
  ⟨Reader.sorted item.read,
    fun dict => .record (dict.entries.map (fun entry => (entry.1, item.write entry.2)))⟩

/-- The entry of a list that a key selects, by its name or by its number. -/
def select? (key : FieldKey) (entries : List (String × α)) : Option α :=
  match key with
  | .name text => entries.lookup text
  | .number n => (entries[n]?).map Prod.snd

def keyText : FieldKey → String
  | .name text => text
  | .number n => toString n

def unknown (key : FieldKey) (names : List String) : DecodeError :=
  .unknownVariant (keyText key) names

/-- A choice between names. -/
def choice (values : List (String × α)) (name : α → String) : Codec α where
  read := fun datum => do
    let form ← datum.variantForm
    match select? form.key values with
    | none => Read.refuse (unknown form.key (values.map Prod.fst))
    | some value =>
      match form.payload with
      | none => return value
      | some payload =>
        payload.unit
        return value
  write := fun value => .string (name value)

/-- Variants that carry data, each under its name. -/
structure Variants (α : Type) where
  name : String
  readers : List (String × Reader α)
  write : α → String × Wire

/-- A choice between variants that carry data. -/
def variants (choice : Variants α) : Codec α where
  read := fun datum => do
    let form ← datum.variantForm
    match select? form.key choice.readers with
    | none => Read.refuse (unknown form.key (choice.readers.map Prod.fst))
    | some reader =>
      match form.payload with
      | none => Read.refuse (.wrongType .bareVariant "newtype variant")
      | some payload => reader payload
  write := fun value => .variant (choice.write value).1 (choice.write value).2

/-- A record, given by its fields and by how they make up a value. -/
def record {σ : Type} (name : String) (fields : Fields WireField σ) (build : σ → α)
    (parts : α → σ) : Codec α where
  read := fun datum => return build (← Reader.fields name fields.readers datum)
  write := fun value => .record (fields.write (parts value))

/-- The first entry whose key names a variant, read from its typed content. -/
def readVariant (choice : Variants α) : List (FieldKey × Content) → Read α
  | [] => Read.refuse (.noVariant choice.name)
  | (key, value) :: rest =>
    match select? key choice.readers with
    | some reader => reader (.content value)
    | none => readVariant choice rest

/-- A record that has one more entry besides its fields, under the name of a variant. All entries
that are no fields are taken as typed content, and the first that names a variant counts. -/
def recordWith {σ : Type} (name : String) (fields : Fields WireField σ) (choice : Variants β)
    (build : σ → β → α) (parts : α → σ) (variant : α → β) : Codec α where
  read := fun datum => do
    let (values, others) ← Reader.namedFields ("struct " ++ name) false fields.readers datum
    let contents ← others.mapM (fun entry => return (entry.1, ← entry.2.typed))
    return build values (← readVariant choice contents)
  write := fun value =>
    .record (fields.write (parts value) ++ [choice.write (variant value)])

end Codec

namespace WireField

variable {α : Type}

def required (name : String) (codec : Codec α) : WireField α where
  name := name
  read := codec.read
  missing := .refused
  write := fun value => some (codec.write value)

/-- Left out when none. -/
def optional (name : String) (codec : Codec α) : WireField (Option α) where
  name := name
  read := Reader.option codec.read
  missing := .stands none
  write := fun value => value.map codec.write

/-- A list that is left out when empty. -/
def items (name : String) (codec : Codec α) : WireField (List α) where
  name := name
  read := Reader.list codec.read
  missing := .stands []
  write := fun value => if value.isEmpty then none else some ((Codec.list codec).write value)

/-- A text that is left out when empty. -/
def textOrEmpty (name : String) : WireField String where
  name := name
  read := Reader.text
  missing := .stands ""
  write := fun value => if value.isEmpty then none else some (.string value)

/-- A text that is written even when empty. -/
def textAlways (name : String) : WireField String where
  name := name
  read := Reader.text
  missing := .stands ""
  write := fun value => some (.string value)

end WireField

end ApiManifest
