import ApiManifest.Proofs.Json.Nodes
import ApiManifest.Proofs.Json.Numbers
import ApiManifest.Proofs.TypedContent

/-!
The node of a JSON value as typed content and as data again. Both look at the types of scalars, so
every number must be in the ranges that are known.
-/

namespace ApiManifest.JsonSyntax

open Read (Always)
open Yaml (Node Style Plain)

def Key.name (key : Key) : String :=
  String.ofList (key.pieces.map Piece.image)

def Members.named (members : Members) : List (String × Value) :=
  members.toList.map (fun member => (member.1.name, member.2))

def Value.numberFits : Value → Prop
  | .number numeral => numeral.fits
  | _ => True

instance : DecidablePred Value.numberFits
  | .number numeral => inferInstanceAs (Decidable numeral.fits)
  | .null | .bool _ | .string _ | .emptyArray _ | .array .. | .emptyObject _ | .object .. =>
    inferInstanceAs (Decidable True)

section Contents

def Numeral.content (numeral : Numeral) : Content :=
  if numeral.isWhole then .int numeral.integer else .float numeral.double

mutual

/-- The typed content of a value. -/
def Value.content : Value → Content
  | .null => .null
  | .bool value => .bool value
  | .number numeral => numeral.content
  | .string pieces => .string (String.ofList (pieces.map Piece.image))
  | .emptyArray _ => .list []
  | .array _ items => .list items.contents
  | .emptyObject _ => .map []
  | .object _ members => .map members.contents

def Items.contents : Items → List Content
  | .last value _ => [value.content]
  | .more value _ _ rest => value.content :: rest.contents

def Members.contents : Members → List (Content × Content)
  | .last key value _ => [(.string key.name, value.content)]
  | .more key value _ _ rest => (.string key.name, value.content) :: rest.contents

end

theorem Items.nodes_eq (items : Items) : items.nodes = items.toList.map Value.node := by
  match items with
  | .last value after => rfl
  | .more value after beyond rest => rw [nodes, toList, List.map_cons, rest.nodes_eq]

def nodeEntry (member : String × Value) : Node × Node :=
  (.scalar none .doubleQuoted member.1, member.2.node)

def contentEntry (member : String × Value) : Content × Content :=
  (.string member.1, member.2.content)

theorem Members.nodes_eq (members : Members) : members.nodes = members.named.map nodeEntry := by
  match members with
  | .last key value after => rfl
  | .more key value after beyond rest =>
    rw [nodes, rest.nodes_eq]
    rfl

theorem Members.contents_eq (members : Members) :
    members.contents = members.named.map contentEntry := by
  match members with
  | .last key value after => rfl
  | .more key value after beyond rest =>
    rw [contents, rest.contents_eq]
    rfl

end Contents

section Scalars

variable {anchors : Yaml.Anchors} {depth : Nat}

theorem scalarContent_quoted (text : String) :
    Yaml.scalarContent none .doubleQuoted text = .ok (.string text) := by
  simp [Yaml.scalarContent]

theorem scalarContent_plain {text : List Char} {plain : Plain} {content : Content}
    (resolved : Plain.resolve text = plain)
    (typed : plain.content? (String.ofList text) = some content) :
    Yaml.scalarContent none .plain (String.ofList text) = .ok content := by
  have notCore (name : String) : (none : Option String) ≠ some (Yaml.coreTag name) := by simp
  subst resolved
  unfold Yaml.scalarContent
  simp only [notCore, if_false, Option.isSome_none, ne_eq, not_true, decide_false,
    String.toList_ofList]
  cases resolved : Plain.resolve text <;> simp_all [Plain.content?]

theorem resolve_flagChars (value : Bool) : Plain.resolve (flagChars value) = .bool value := by
  cases value <;> decide

theorem Numeral.scalarContent_chars {numeral : Numeral} (fits : numeral.fits) :
    Yaml.scalarContent none .plain (String.ofList numeral.chars) = .ok numeral.content := by
  apply scalarContent_plain (numeral.resolve_chars fits)
  unfold Numeral.plain Numeral.content
  split <;> rfl

def Value.isScalar : Value → Bool
  | .null | .bool _ | .number _ | .string _ => true
  | _ => false

theorem Value.node_scalar {value : Value} (scalar : value.isScalar) (fits : value.numberFits) :
    ∃ style text, value.node = .scalar none style text ∧
      Yaml.scalarContent none style text = .ok value.content := by
  have absent : Plain.resolve "null".toList = .null := by decide
  match value with
  | .null => exact ⟨_, _, rfl, scalarContent_plain absent rfl⟩
  | .bool flag => exact ⟨_, _, rfl, scalarContent_plain (resolve_flagChars flag) rfl⟩
  | .number numeral => exact ⟨_, _, rfl, numeral.scalarContent_chars fits⟩
  | .string pieces => exact ⟨_, _, rfl, scalarContent_quoted _⟩

theorem Piece.string?_eq {pieces : List Piece} (read : ∀ piece ∈ pieces, piece.IsRead) :
    Piece.string? pieces = some (String.ofList (pieces.map Piece.image)) := by
  rw [string?, text?_eq read]
  rfl

theorem Value.json?_scalar {value : Value} (scalar : value.isScalar) (fits : value.numberFits)
    (read : value.IsRead) : value.json? = some (Datum.scalarJson value.content) := by
  match value with
  | .null => rfl
  | .bool flag => rfl
  | .number numeral =>
    rw [json?, content, Numeral.value, Numeral.content]
    have finite : numeral.isWhole = false → numeral.double.isFinite := by
      intro notWhole
      simpa [numberFits, Numeral.fits, notWhole] using fits
    cases whole : numeral.isWhole with
    | true => rfl
    | false => simp [Datum.scalarJson, finite whole]
  | .string pieces =>
    rw [json?, Piece.string?_eq read]
    rfl

end Scalars

theorem exists_less {inside depth : Nat} (deep : inside + 1 ≤ depth) :
    ∃ less, depth = less + 1 ∧ inside ≤ less :=
  ⟨depth - 1, by omega, by omega⟩

section Typed

variable {anchors : Yaml.Anchors} {depth : Nat}

theorem Value.typed_scalar {value : Value} (scalar : value.isScalar) (fits : value.numberFits) :
    Always (Datum.nodeContent anchors depth value.node) value.content := by
  obtain ⟨style, text, node, content⟩ := Value.node_scalar scalar fits
  rw [node]
  exact Datum.always_nodeContent_scalar_iff.2 ⟨rfl, content⟩

theorem typed_sequence {items : List Node} {contents : List Content}
    (each : Always (items.mapM (Datum.nodeContent anchors depth)) contents) :
    Always (Datum.nodeContent anchors (depth + 1) (.sequence none items)) (.list contents) := by
  rw [Datum.nodeContent_sequence]
  exact (Read.always_pure ()).bind (each.map Content.list)

theorem typed_mapping {entries : List (Node × Node)} {contents : List (Content × Content)}
    (each : Always (entries.mapM (Datum.entryContent anchors depth)) contents) :
    Always (Datum.nodeContent anchors (depth + 1) (.mapping none entries)) (.map contents) := by
  rw [Datum.nodeContent_mapping]
  exact (Read.always_pure ()).bind (each.map Content.map)

theorem typed_entry (key : String) {node : Node} {content : Content}
    (typed : Always (Datum.nodeContent anchors depth node) content) :
    Always (Datum.entryContent anchors depth (.scalar none .doubleQuoted key, node))
      (.string key, content) := by
  have name : Always (Datum.nodeContent anchors depth (.scalar none .doubleQuoted key))
      (.string key) := Datum.always_nodeContent_scalar_iff.2 ⟨rfl, scalarContent_quoted key⟩
  exact name.bind (typed.map _)

mutual

/-- A node has the typed content of its value. -/
theorem Value.typed (value : Value) {depth : Nat} (fits : value.All Value.numberFits)
    (deep : value.depth ≤ depth) :
    Always (Datum.nodeContent anchors depth value.node) value.content := by
  match value with
  | .null => exact Value.typed_scalar rfl fits
  | .bool flag => exact Value.typed_scalar rfl fits
  | .number numeral => exact Value.typed_scalar rfl fits
  | .string pieces => exact Value.typed_scalar rfl fits
  | .emptyArray inside =>
    obtain ⟨less, rfl, -⟩ := exists_less deep
    exact typed_sequence (Read.always_pure [])
  | .array before items =>
    obtain ⟨less, rfl, room⟩ := exists_less deep
    exact typed_sequence (items.typed fits.2 room)
  | .emptyObject inside =>
    obtain ⟨less, rfl, -⟩ := exists_less deep
    exact typed_mapping (Read.always_pure [])
  | .object before members =>
    obtain ⟨less, rfl, room⟩ := exists_less deep
    exact typed_mapping (members.typed fits.2 room)

theorem Items.typed (items : Items) {depth : Nat} (fits : items.All Value.numberFits)
    (deep : items.depth ≤ depth) :
    Always (items.nodes.mapM (Datum.nodeContent anchors depth)) items.contents := by
  match items with
  | .last value after =>
    have first := value.typed fits deep
    rw [Items.nodes, List.mapM_cons]
    exact first.bind ((Read.always_pure []).map _)
  | .more value after beyond rest =>
    rw [Items.depth] at deep
    have first := value.typed fits.1 (show value.depth ≤ depth by omega)
    have later := rest.typed fits.2 (show rest.depth ≤ depth by omega)
    rw [Items.nodes, List.mapM_cons]
    exact first.bind (later.map _)

theorem Members.typed (members : Members) {depth : Nat} (fits : members.All Value.numberFits)
    (deep : members.depth ≤ depth) :
    Always (members.nodes.mapM (Datum.entryContent anchors depth)) members.contents := by
  match members with
  | .last key value after =>
    have first := typed_entry key.name (value.typed fits deep)
    rw [Members.nodes, List.mapM_cons]
    exact first.bind ((Read.always_pure []).map _)
  | .more key value after beyond rest =>
    rw [Members.depth] at deep
    have first := typed_entry key.name
      (value.typed fits.1 (show value.depth ≤ depth by omega))
    have later := rest.typed fits.2 (show rest.depth ≤ depth by omega)
    rw [Members.nodes, List.mapM_cons]
    exact first.bind (later.map _)

end

end Typed

section Data

open Datum (nodeJson)

variable {anchors : Yaml.Anchors} {depth : Nat}

def entryJson (anchors : Yaml.Anchors) (depth : Nat) (entry : Node × Node) :
    Read (String × Json) := do
  let key ← (Datum.node ⟨anchors, depth, false⟩ entry.1).text
  return (key, ← nodeJson anchors depth entry.2)

theorem data_sequence {items : List Node} {data : List Json}
    (each : Always (items.mapM (nodeJson anchors depth)) data) :
    Always (nodeJson anchors (depth + 1) (.sequence none items)) (.array data) := by
  unfold nodeJson
  rw [Datum.force_direct rfl, pure_bind]
  exact (Read.always_pure ()).bind (each.map Json.array)

theorem data_mapping {entries : List (Node × Node)} {data : List (String × Json)}
    (each : Always (entries.mapM (entryJson anchors depth)) data) :
    Always (nodeJson anchors (depth + 1) (.mapping none entries)) (.ofEntries data) := by
  unfold nodeJson
  rw [Datum.force_direct rfl, pure_bind]
  exact (Read.always_pure ()).bind (each.map Json.ofEntries)

theorem data_entry (key : String) {node : Node} {data : Json}
    (read : Always (nodeJson anchors depth node) data) :
    Always (entryJson anchors depth (.scalar none .doubleQuoted key, node)) (key, data) := by
  have name := (@Datum.always_text_iff ⟨anchors, depth, false⟩ (.scalar none .doubleQuoted key) key
    rfl).2 rfl
  exact name.bind (read.map _)

theorem Value.data_scalar {value : Value} {data : Json} (scalar : value.isScalar)
    (fits : value.numberFits) (read : value.IsRead) (denotes : value.json? = some data) :
    Always (nodeJson anchors depth value.node) data := by
  obtain ⟨style, text, node, content⟩ := Value.node_scalar scalar fits
  rw [Value.json?_scalar scalar fits read] at denotes
  obtain rfl := Option.some.inj denotes
  have typed := Datum.always_liftExcept_iff.2 content
  have same : nodeJson anchors depth (.scalar none style text) = Datum.untagged none >>= fun _ =>
      Datum.liftExcept (Yaml.scalarContent none style text) >>= fun content =>
        pure (Datum.scalarJson content) := by
    cases depth <;> (unfold nodeJson; rw [Datum.force_direct rfl, pure_bind])
  rw [node, same]
  exact (Read.always_pure ()).bind (typed.map Datum.scalarJson)

mutual

/-- A node is read as the data of its value. -/
theorem Value.data (value : Value) {depth : Nat} {data : Json} (read : value.All Value.IsRead)
    (fits : value.All Value.numberFits) (deep : value.depth ≤ depth)
    (denotes : value.json? = some data) : Always (nodeJson anchors depth value.node) data := by
  match value with
  | .null => exact Value.data_scalar rfl fits read denotes
  | .bool flag => exact Value.data_scalar rfl fits read denotes
  | .number numeral => exact Value.data_scalar rfl fits read denotes
  | .string pieces => exact Value.data_scalar rfl fits read denotes
  | .emptyArray inside =>
    obtain ⟨less, rfl, -⟩ := exists_less deep
    obtain rfl := Option.some.inj denotes
    exact data_sequence (Read.always_pure [])
  | .array before items =>
    obtain ⟨less, rfl, room⟩ := exists_less deep
    obtain ⟨others, given, rfl⟩ := Option.map_eq_some_iff.1 denotes
    exact data_sequence (items.data read.2 fits.2 room given)
  | .emptyObject inside =>
    obtain ⟨less, rfl, -⟩ := exists_less deep
    obtain rfl := Option.some.inj denotes
    exact data_mapping (Read.always_pure [])
  | .object before members =>
    obtain ⟨less, rfl, room⟩ := exists_less deep
    obtain ⟨entries, given, rfl⟩ := Option.map_eq_some_iff.1 denotes
    exact data_mapping (members.data read.1 read.2 fits.2 room given)

theorem Items.data (items : Items) {depth : Nat} {data : List Json}
    (read : items.All Value.IsRead) (fits : items.All Value.numberFits)
    (deep : items.depth ≤ depth) (denotes : items.json? = some data) :
    Always (items.nodes.mapM (nodeJson anchors depth)) data := by
  match items with
  | .last value after =>
    obtain ⟨one, given, rfl⟩ := Option.map_eq_some_iff.1 denotes
    have first := value.data read fits deep given
    rw [Items.nodes, List.mapM_cons]
    exact first.bind ((Read.always_pure []).map _)
  | .more value after beyond rest =>
    rw [Items.depth] at deep
    simp only [Items.json?, Option.bind_eq_bind, Option.bind_eq_some_iff, Option.some.injEq]
      at denotes
    obtain ⟨one, given, others, also, rfl⟩ := denotes
    have first := value.data read.1 fits.1 (show value.depth ≤ depth by omega) given
    have later := rest.data read.2 fits.2 (show rest.depth ≤ depth by omega) also
    rw [Items.nodes, List.mapM_cons]
    exact first.bind (later.map _)

theorem Members.data (members : Members) {depth : Nat} {data : List (String × Json)}
    (keys : ∀ member ∈ members.toList, member.1.IsRead) (read : members.All Value.IsRead)
    (fits : members.All Value.numberFits) (deep : members.depth ≤ depth)
    (denotes : members.json? = some data) :
    Always (members.nodes.mapM (entryJson anchors depth)) data := by
  match members with
  | .last key value after =>
    have named := Piece.string?_eq (keys (key, value) (by simp [Members.toList])).pieces
    simp only [Members.json?, named, Option.bind_eq_bind, Option.bind_eq_some_iff,
      Option.some.injEq, exists_eq_left'] at denotes
    obtain ⟨one, given, rfl⟩ := denotes
    have first := data_entry key.name (value.data read fits deep given)
    rw [Members.nodes, List.mapM_cons]
    exact first.bind ((Read.always_pure []).map _)
  | .more key value after beyond rest =>
    rw [Members.depth] at deep
    have named := Piece.string?_eq (keys (key, value) (by simp [Members.toList])).pieces
    simp only [Members.json?, named, Option.bind_eq_bind, Option.bind_eq_some_iff,
      Option.some.injEq, exists_eq_left'] at denotes
    obtain ⟨one, given, others, also, rfl⟩ := denotes
    have first := data_entry key.name
      (value.data read.1 fits.1 (show value.depth ≤ depth by omega) given)
    have later := rest.data (fun member inside => keys member (by simp [Members.toList, inside]))
      read.2 fits.2 (show rest.depth ≤ depth by omega) also
    rw [Members.nodes, List.mapM_cons]
    exact first.bind (later.map _)

end

end Data

end ApiManifest.JsonSyntax
