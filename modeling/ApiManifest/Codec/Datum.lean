import ApiManifest.Codec.Fault
import ApiManifest.Yaml.Node

/-!
The values that are read: a JSON value, a node of a YAML document, or the typed content of one of
these. A datum can be asked for a text, a number, a list, the fields of a record and so on, and
each kind of datum answers by its own rules: a scalar of a YAML document has no type of its own,
while a JSON value does.

A reading may follow only so many references to anchors; how many are left is its state.
-/

namespace ApiManifest

/-- A value whose scalars have types and whose keys may be of any type. -/
inductive Content where
  | null
  | bool (value : Bool)
  | int (value : Int)
  | float (value : Double)
  | string (text : String)
  | list (items : List Content)
  | map (entries : List (Content × Content))
  deriving Inhabited

abbrev Read (α : Type) := StateT Nat (Except DecodeError) α

namespace Read

def refuse {α : Type} (error : DecodeError) : Read α :=
  fun _ => .error error

/-- Takes the second reading where the first one fails. -/
def orElse {α : Type} (first second : Read α) : Read α :=
  fun left =>
    match first left with
    | .ok result => .ok result
    | .error _ => second left

/-- Pays for following one reference. -/
def followReference : Read Unit :=
  fun left =>
    match left with
    | 0 => .error .tooManyReferences
    | left + 1 => .ok ((), left)

end Read

/-- Where a node is read: the anchors of its document, how many collections may still stand
inside each other, and whether its tag has already been used as the name of a variant. -/
structure Place where
  anchors : Yaml.Anchors
  depth : Nat
  tagUsed : Bool

inductive Datum where
  | json (value : Json)
  | content (value : Content)
  | node (place : Place) (node : Yaml.Node)

/-- The key of a record's field: its name, or its number among the fields. -/
inductive FieldKey where
  | name (text : String)
  | number (n : Nat)

/-- The two forms of a record. -/
inductive RecordForm where
  | named (entries : List (FieldKey × Datum))
  | listed (items : List Datum)

/-- A variant that was chosen, and what it carries. -/
structure VariantForm where
  key : FieldKey
  payload : Option Datum

namespace Content

mutual

def ofJson : Json → Content
  | .null => .null
  | .bool value => .bool value
  | .int value => .int value
  | .float value => .float value
  | .string text => .string text
  | .array items => .list (ofItems items)
  | .object entries => .map (ofEntries entries)

def ofItems : List Json → List Content
  | [] => []
  | item :: rest => ofJson item :: ofItems rest

def ofEntries : List (String × Json) → List (Content × Content)
  | [] => []
  | (key, value) :: rest => (.string key, ofJson value) :: ofEntries rest

end

def found : Content → Found
  | .null => .null
  | .bool value => .bool value
  | .int value => .int value
  | .float value => .float value
  | .string text => .string text
  | .list _ => .sequence
  | .map _ => .map

/-- A field is named by text or by its number. -/
def fieldKey? : Content → Option FieldKey
  | .string text => some (.name text)
  | .int n => if 0 ≤ n then some (.number n.toNat) else none
  | _ => none

end Content

def Json.found : Json → Found
  | .null => .null
  | .bool value => .bool value
  | .int value => .int value
  | .float value => .float value
  | .string text => .string text
  | .array _ => .sequence
  | .object _ => .map

namespace Yaml

def coreTag (name : String) : String :=
  "tag:yaml.org,2002:" ++ name

/-- The variant a tag names: the text after its exclamation mark. -/
def variantTag? (tag : Option String) : Option String :=
  match tag.map String.toList with
  | some ('!' :: rest) => some (String.ofList rest)
  | _ => none

/-- The typed content of a scalar. The tags of the core types settle the type of any scalar, and
a plain scalar without one of them stands for what its text says. -/
def scalarContent (tag : Option String) (style : Style) (text : String) :
    Except DecodeError Content :=
  let chars := text.toList
  if tag = some (coreTag "bool") then
    match Plain.bool? chars with
    | some value => .ok (.bool value)
    | none => .error (.wrongValue (.string text) "a boolean")
  else if tag = some (coreTag "int") then
    match (Plain.integer? chars).bind (fun parts => Plain.ofInteger? parts.1 parts.2) with
    | some (.int value) => .ok (.int value)
    | _ => .error (.wrongValue (.string text) "an integer")
  else if tag = some (coreTag "float") then
    match Plain.float? chars with
    | some value => .ok (.float value)
    | none => .error (.wrongValue (.string text) "a float")
  else if tag = some (coreTag "null") then
    if Plain.isNull chars then .ok .null else .error (.wrongValue (.string text) "null")
  else if tag.isSome || style ≠ .plain then .ok (.string text)
  else match Plain.resolve chars with
    | .null => .ok .null
    | .bool value => .ok (.bool value)
    | .int value => .ok (.int value)
    | .float value => .ok (.float value)
    | .wide => .error (.wrongValue (.string text) "an integer of 64 bits")
    | .text => .ok (.string text)

end Yaml

namespace Datum

/-- A datum that is no reference. The node a reference stands for is none itself. -/
def force : Datum → Read Datum
  | .node place (.reference anchor) => do
    Read.followReference
    match place.anchors.resolve? anchor with
    | some target => return .node place target
    | none => Read.refuse .tooManyReferences
  | datum => pure datum

def found : Datum → Found
  | .json value => value.found
  | .content value => value.found
  | .node _ (.scalar _ _ text) => .string text
  | .node _ (.sequence ..) => .sequence
  | .node _ (.mapping ..) => .map
  | .node _ (.reference _) => .null

def refuse {α : Type} (datum : Datum) (expected : String) : Read α :=
  Read.refuse (.wrongType datum.found expected)

/-- The place of what a collection holds. -/
def inside (place : Place) : Read Place :=
  match place.depth with
  | 0 => Read.refuse .tooDeep
  | depth + 1 => pure { place with depth := depth, tagUsed := false }

/-- Whether a scalar is an empty value, which stands for an empty collection. -/
def isLeftOut (style : Yaml.Style) (text : String) : Bool :=
  style = .plain && text.isEmpty

/-- The text of a datum. Every scalar of a YAML document has one. -/
def text (datum : Datum) : Read String := do
  match ← datum.force with
  | .json (.string text) => return text
  | .content (.string text) => return text
  | .node _ (.scalar _ _ text) => return text
  | other => other.refuse "a string"

/-- Whether a scalar may be read as a boolean or a number: a plain one always, a literal one if
its tag says so. -/
def isBare (place : Place) (tag : Option String) (style : Yaml.Style) (name : String) : Bool :=
  style = .plain
    || (style = .literal && !place.tagUsed && tag = some (Yaml.coreTag name))

def flag (datum : Datum) : Read Bool := do
  match ← datum.force with
  | .json (.bool value) => return value
  | .content (.bool value) => return value
  | .node place (.scalar tag style text) =>
    if isBare place tag style "bool" then
      match Yaml.Plain.bool? text.toList with
      | some value => return value
      | none => Read.refuse (.wrongType (.string text) "a boolean")
    else Read.refuse (.wrongType (.string text) "a boolean")
  | other => other.refuse "a boolean"

/-- A range of whole numbers and its name. -/
structure IntRange where
  name : String
  low : Int
  high : Int

def inRange (range : IntRange) (n : Int) : Read Int :=
  if range.low ≤ n ∧ n ≤ range.high then pure n
  else Read.refuse (.wrongValue (.int n) range.name)

/-- A whole number. Where no negative number is allowed, neither is a minus sign. -/
def int (range : IntRange) (datum : Datum) : Read Int := do
  match ← datum.force with
  | .json (.int n) => inRange range n
  | .content (.int n) => inRange range n
  | .node place (.scalar tag style text) =>
    if isBare place tag style "int" then
      match Yaml.Plain.integer? text.toList with
      | some (negative, n) =>
        if negative && 0 ≤ range.low then Read.refuse (.wrongType (.string text) range.name)
        else inRange range (if negative then -(n : Int) else n)
      | none => Read.refuse (.wrongType (.string text) range.name)
    else Read.refuse (.wrongType (.string text) range.name)
  | other => other.refuse range.name

/-- Whether a scalar of a YAML document stands for nothing. -/
def scalarIsNull (place : Place) (tag : Option String) (style : Yaml.Style) (text : String) :
    Read Bool :=
  if style ≠ .plain then pure false
  else match tag with
    | some tag =>
      if place.tagUsed then pure (text.isEmpty || Yaml.Plain.isNull text.toList)
      else if tag = Yaml.coreTag "null" then
        if Yaml.Plain.isNull text.toList then pure true
        else Read.refuse (.wrongValue (.string text) "null")
      else pure false
    | none => pure (text.isEmpty || Yaml.Plain.isNull text.toList)

/-- Whether a datum that is no reference stands for nothing. -/
def isNull : Datum → Read Bool
  | .json .null => pure true
  | .content .null => pure true
  | .node place (.scalar tag style text) => scalarIsNull place tag style text
  | _ => pure false

def items (datum : Datum) : Read (List Datum) := do
  match ← datum.force with
  | .json (.array items) => return items.map .json
  | .content (.list items) => return items.map .content
  | .node place (.sequence _ items) =>
    let place ← inside place
    return items.map (.node place)
  | .node place (.scalar tag style text) =>
    if isLeftOut style text then return []
    else (Datum.node place (.scalar tag style text)).refuse "a sequence"
  | other => other.refuse "a sequence"

/-- The entries of a map, whose keys are texts. -/
def entries (datum : Datum) : Read (List (String × Datum)) := do
  match ← datum.force with
  | .json (.object entries) => return entries.map (fun entry => (entry.1, .json entry.2))
  | .content (.map entries) =>
    entries.mapM (fun entry => return (← (Datum.content entry.1).text, .content entry.2))
  | .node place (.mapping _ entries) =>
    let place ← inside place
    entries.mapM (fun entry => return (← (Datum.node place entry.1).text, .node place entry.2))
  | .node place (.scalar tag style text) =>
    if isLeftOut style text then return []
    else (Datum.node place (.scalar tag style text)).refuse "a map"
  | other => other.refuse "a map"

def contentKey (key : Content) : Read FieldKey :=
  match key.fieldKey? with
  | some key => pure key
  | none => (Datum.content key).refuse "field identifier"

/-- The fields of a record. A list in their order serves as well, except in a YAML document. -/
def recordForm (expected : String) (datum : Datum) : Read RecordForm := do
  match ← datum.force with
  | .json (.object entries) =>
    return .named (entries.map (fun entry => (.name entry.1, .json entry.2)))
  | .json (.array items) => return .listed (items.map .json)
  | .content (.map entries) =>
    return .named (← entries.mapM (fun entry => return (← contentKey entry.1, .content entry.2)))
  | .content (.list items) => return .listed (items.map .content)
  | .node place (.mapping _ entries) =>
    let place ← inside place
    return .named (← entries.mapM (fun entry =>
      return (.name (← (Datum.node place entry.1).text), .node place entry.2)))
  | .node place (.scalar tag style text) =>
    if isLeftOut style text then return .named []
    else (Datum.node place (.scalar tag style text)).refuse expected
  | other => other.refuse expected

/-- The variant a datum names. In a YAML document the tag names it, and what the tag stands on is
what the variant carries; a scalar without such a tag names a variant that carries nothing. -/
def variantForm (datum : Datum) : Read VariantForm := do
  match ← datum.force with
  | .json (.string text) => return ⟨.name text, none⟩
  | .json (.object [(tag, payload)]) => return ⟨.name tag, some (.json payload)⟩
  | .json (.object _) => Read.refuse (.wrongValue .map "map with a single key")
  | .content (.string text) => return ⟨.name text, none⟩
  | .content (.map [(key, payload)]) => return ⟨← contentKey key, some (.content payload)⟩
  | .content (.map _) => Read.refuse (.wrongValue .map "map with a single key")
  | .node place (.scalar tag style text) =>
    match Yaml.variantTag? tag with
    | some name =>
      return ⟨.name name, some (.node { place with tagUsed := true } (.scalar tag style text))⟩
    | none => return ⟨.name text, none⟩
  | .node place (.sequence tag items) =>
    match Yaml.variantTag? tag with
    | some name =>
      return ⟨.name name, some (.node { place with tagUsed := true } (.sequence tag items))⟩
    | none => (Datum.node place (.sequence tag items)).refuse "a variant"
  | .node place (.mapping tag entries) =>
    match Yaml.variantTag? tag with
    | some name =>
      return ⟨.name name, some (.node { place with tagUsed := true } (.mapping tag entries))⟩
    | none => (Datum.node place (.mapping tag entries)).refuse "a variant"
  | other => other.refuse "string or map"

/-- What a variant without data may carry: nothing at all. -/
def unit (datum : Datum) : Read Unit := do
  let datum ← datum.force
  if ← datum.isNull then return () else datum.refuse "unit"

def untagged (tag : Option String) : Read Unit :=
  match Yaml.variantTag? tag with
  | some name => Read.refuse (.unexpectedTag name)
  | none => pure ()

def liftExcept {α : Type} (result : Except DecodeError α) : Read α :=
  fun left => result.map (fun value => (value, left))

/-- The typed content of a node, which may hold so many collections inside each other. -/
def nodeContent (anchors : Yaml.Anchors) : Nat → Yaml.Node → Read Content
  | depth, root => do
    match ← force (.node ⟨anchors, depth, false⟩ root) with
    | .node _ (.scalar tag style text) =>
      untagged tag
      liftExcept (Yaml.scalarContent tag style text)
    | .node _ (.sequence tag items) =>
      untagged tag
      match depth with
      | 0 => Read.refuse .tooDeep
      | depth + 1 => return .list (← items.mapM (nodeContent anchors depth))
    | .node _ (.mapping tag entries) =>
      untagged tag
      match depth with
      | 0 => Read.refuse .tooDeep
      | depth + 1 =>
        return .map (← entries.mapM (fun entry => do
          let key ← nodeContent anchors depth entry.1
          return (key, ← nodeContent anchors depth entry.2)))
    | _ => Read.refuse .tooManyReferences

/-- The typed content of a datum. -/
def typed : Datum → Read Content
  | .json value => pure (.ofJson value)
  | .content value => pure value
  | .node place root => nodeContent place.anchors place.depth root

/-- A scalar as a JSON value: what is no number is null. -/
def scalarJson (content : Content) : Json :=
  match content with
  | .null => .null
  | .bool value => .bool value
  | .int value => .int value
  | .float value => if value.isFinite then .float value else .null
  | .string text => .string text
  | .list _ => .array []
  | .map _ => .object []

/-- A node as a JSON value. Keys are texts, and of equal keys the last one counts. -/
def nodeJson (anchors : Yaml.Anchors) : Nat → Yaml.Node → Read Json
  | depth, root => do
    match ← force (.node ⟨anchors, depth, false⟩ root) with
    | .node _ (.scalar tag style text) =>
      untagged tag
      return scalarJson (← liftExcept (Yaml.scalarContent tag style text))
    | .node _ (.sequence tag items) =>
      untagged tag
      match depth with
      | 0 => Read.refuse .tooDeep
      | depth + 1 => return .array (← items.mapM (nodeJson anchors depth))
    | .node _ (.mapping tag entries) =>
      untagged tag
      match depth with
      | 0 => Read.refuse .tooDeep
      | depth + 1 =>
        let entries ← entries.mapM (fun entry => do
          let key ← (Datum.node ⟨anchors, depth, false⟩ entry.1).text
          return (key, ← nodeJson anchors depth entry.2))
        return .ofEntries entries
    | _ => Read.refuse .tooManyReferences

mutual

def contentJson : Content → Json
  | .list items => .array (contentItems items)
  | .map entries => .ofEntries (contentEntries entries)
  | scalar => scalarJson scalar

def contentItems : List Content → List Json
  | [] => []
  | item :: rest => contentJson item :: contentItems rest

def contentEntries : List (Content × Content) → List (String × Json)
  | [] => []
  | (.string key, value) :: rest => (key, contentJson value) :: contentEntries rest
  | _ :: rest => contentEntries rest

end

/-- Any datum as a JSON value. -/
def toJson : Datum → Read Json
  | .json value => pure value
  | .content value => pure (contentJson value)
  | .node place root => nodeJson place.anchors place.depth root

end Datum

end ApiManifest
