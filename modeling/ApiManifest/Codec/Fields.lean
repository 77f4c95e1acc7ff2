import ApiManifest.Codec.Datum
import ApiManifest.Dict
import ApiManifest.Wire

/-!
Readers of single values and of records. A record is read from its fields by name, where unknown
names are passed over, or from a list of its fields in their order. Every field that is there is
read before a missing one is noticed, and missing ones are noticed in their order.
-/

namespace ApiManifest

abbrev Reader (α : Type) := Datum → Read α

namespace Reader

variable {α β : Type}

def text : Reader String := Datum.text

def flag : Reader Bool := Datum.flag

def int (range : Datum.IntRange) : Reader Int := Datum.int range

/-- None where nothing stands. -/
def option (reader : Reader α) : Reader (Option α) := fun datum => do
  let datum ← datum.force
  if ← datum.isNull then return none else return some (← reader datum)

def list (reader : Reader α) : Reader (List α) := fun datum => do
  (← datum.items).mapM reader

def entries (reader : Reader α) : Reader (List (String × α)) := fun datum => do
  (← datum.entries).mapM (fun entry => return (entry.1, ← reader entry.2))

def dict (reader : Reader α) : Reader (Dict α) := fun datum => do
  return .ofList (← entries reader datum)

def sorted (reader : Reader α) : Reader (SortedDict α) := fun datum => do
  return .ofList (← entries reader datum)

def json : Reader Json := Datum.toJson

def map (f : α → β) (reader : Reader α) : Reader β := fun datum => do
  return f (← reader datum)

end Reader

/-- What a field that is not there stands for. -/
inductive Missing (α : Type) where
  /-- It must be there. -/
  | refused
  /-- It may be left out where fields are named, but not from a list. -/
  | unlessListed (value : α)
  | stands (value : α)

/-- The value of a missing field where fields are named. -/
def Missing.value? {α : Type} : Missing α → Option α
  | .refused => none
  | .unlessListed value => some value
  | .stands value => some value

structure Field (α : Type) where
  name : String
  read : Reader α
  missing : Missing α

namespace Field

variable {α : Type}

def required (name : String) (read : Reader α) : Field α :=
  ⟨name, read, .refused⟩

/-- None where the field is not there or nothing stands in it. -/
def optional (name : String) (read : Reader α) : Field (Option α) :=
  ⟨name, Reader.option read, .unlessListed none⟩

def withDefault (name : String) (read : Reader α) (value : α) : Field α :=
  ⟨name, read, .stands value⟩

end Field

/-- A field together with how it is written; none leaves it out. -/
structure WireField (α : Type) extends Field α where
  write : α → Option Wire

/-- The fields of a record, for values that are tuples of theirs. -/
inductive Fields (F : Type → Type) : Type → Type 1
  | nil : Fields F Unit
  | cons {α β : Type} (field : F α) (rest : Fields F β) : Fields F (α × β)

namespace Fields

variable {F : Type → Type} {σ : Type}

def readers {σ : Type} : Fields WireField σ → Fields Field σ
  | .nil => .nil
  | .cons field rest => .cons field.toField rest.readers

/-- The values that have been read so far. -/
def Slots : {σ : Type} → Fields F σ → Type
  | _, .nil => Unit
  | _, .cons (α := α) _ rest => Option α × rest.Slots

def noSlots : {σ : Type} → (fields : Fields F σ) → fields.Slots
  | _, .nil => ()
  | _, .cons _ rest => (none, rest.noSlots)

def count : {σ : Type} → Fields F σ → Nat
  | _, .nil => 0
  | _, .cons _ rest => rest.count + 1

/-- Whether a key selects the first of the fields. -/
def selectsFirst (key : FieldKey) (name : String) : Bool :=
  match key with
  | .name text => text = name
  | .number n => n = 0

/-- The key as the fields after the first one see it. -/
def nextKey : FieldKey → FieldKey
  | .name text => .name text
  | .number n => .number (n - 1)

/-- Reads the field a key selects, if there is one. A field may come again only if `again`. -/
def fill (again : Bool) : {σ : Type} → (fields : Fields Field σ) → FieldKey → Datum →
    fields.Slots → Option (Read fields.Slots)
  | _, .nil, _, _, _ => none
  | _, .cons (α := α) field rest, key, datum, slots =>
    let slots : Option α × rest.Slots := slots
    if selectsFirst key field.name then
      let reading : Read (Option α × rest.Slots) := do
        if slots.1.isSome && !again then Read.refuse (.repeatedField field.name)
        return (some (← field.read datum), slots.2)
      some reading
    else
      (rest.fill again (nextKey key) datum slots.2).map (fun reading =>
        (do return (slots.1, ← reading) : Read (Option α × rest.Slots)))

/-- The values, with what stands for the missing ones. -/
def finish : {σ : Type} → (fields : Fields Field σ) → fields.Slots → Read σ
  | _, .nil, _ => pure ()
  | _, .cons (α := α) field rest, slots => do
    let slots : Option α × rest.Slots := slots
    let value ←
      match slots.1.or field.missing.value? with
      | some value => pure value
      | none => Read.refuse (.missingField field.name)
    return (value, ← rest.finish slots.2)

/-- Fills the slots from entries in their order, and answers the entries no field takes. -/
def fillAll {σ : Type} (again : Bool) (fields : Fields Field σ) : fields.Slots →
    List (FieldKey × Datum) → Read (fields.Slots × List (FieldKey × Datum))
  | slots, [] => return (slots, [])
  | slots, (key, datum) :: rest =>
    match fields.fill again key datum slots with
    | some reading => do
      let slots ← reading
      fillAll again fields slots rest
    | none => do
      let (slots, others) ← fillAll again fields slots rest
      return (slots, (key, datum) :: others)

/-- The values from a list of the fields, the first of them standing at `position`, and what is
left of the list. -/
def ofList (expected : String) : {σ : Type} → (fields : Fields Field σ) → Nat → List Datum →
    Read (σ × List Datum)
  | _, .nil, _, items => return ((), items)
  | _, .cons field rest, position, item :: items => do
    let value ← field.read item
    let (values, items) ← rest.ofList expected (position + 1) items
    return ((value, values), items)
  | _, .cons field rest, position, [] => do
    let value ←
      match field.missing with
      | .stands value => pure value
      | _ => Read.refuse (.wrongLength position expected)
    let (values, items) ← rest.ofList expected (position + 1) []
    return ((value, values), items)

/-- The fields that are written, in their order. -/
def write : {σ : Type} → Fields WireField σ → σ → List (String × Wire)
  | _, .nil, _ => []
  | _, .cons field rest, (value, others) =>
    match field.write value with
    | some wire => (field.name, wire) :: rest.write others
    | none => rest.write others

def names : {σ : Type} → Fields WireField σ → List String
  | _, .nil => []
  | _, .cons field rest => field.name :: rest.names

theorem write_names {σ : Type} (fields : Fields WireField σ) (values : σ) :
    ((fields.write values).map Prod.fst).Sublist fields.names := by
  induction fields with
  | nil => exact List.Sublist.refl _
  | cons field rest ih =>
    obtain ⟨value, others⟩ := values
    rw [write, names]
    split
    · exact (ih others).cons_cons field.name
    · exact (ih others).cons field.name

end Fields

def counted (n : Nat) (noun : String) : String :=
  if n = 1 then "1 " ++ noun else toString n ++ " " ++ noun ++ "s"

namespace Reader

/-- What is said about items after the last field. -/
def surplus (datum : Datum) (total used : Nat) : DecodeError :=
  match datum with
  | .content _ => .wrongLength total (counted used "element" ++ " in sequence")
  | _ => .wrongLength total "fewer elements in array"

/-- The fields of a record that is called so. -/
def fields {σ : Type} (name : String) (fields : Fields Field σ) : Reader σ := fun datum => do
  let expected := "struct " ++ name
  let datum ← datum.force
  match ← datum.recordForm expected with
  | .named entries =>
    let (slots, _) ← fields.fillAll false fields.noSlots entries
    fields.finish slots
  | .listed items =>
    let withCount := expected ++ " with " ++ counted fields.count "element"
    let (values, rest) ← fields.ofList withCount 0 items
    if rest.isEmpty then return values
    else Read.refuse (surplus datum items.length (items.length - rest.length))

/-- The fields of a record that no list stands for, and its other entries. -/
def namedFields {σ : Type} (expected : String) (again : Bool) (fields : Fields Field σ) :
    Reader (σ × List (FieldKey × Datum)) := fun datum => do
  let datum ← datum.force
  match ← datum.recordForm expected with
  | .named entries =>
    let (slots, others) ← fields.fillAll again fields.noSlots entries
    return (← fields.finish slots, others)
  | .listed _ => datum.refuse expected

end Reader

end ApiManifest
