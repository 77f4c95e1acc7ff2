import ApiManifest.Proofs.CoreSchema
import ApiManifest.Proofs.Yaml.WrittenNodes

/-!
What a YAML text says to a reader that gives structure to no tags. Mappings are objects whose keys
are texts, sequences are arrays, and what a plain scalar stands for is settled by the core schema
of YAML 1.2. A value that was written is read as it was meant unless it holds a variant, or a text
that stands plain although the core schema has a number there.
-/

namespace ApiManifest

namespace Yaml

namespace Node

def text? : Json → Option String
  | .string text => some text
  | _ => none

mutual

def data : Node → Option Json
  | .scalar _ style text =>
    some (if style = .plain then Core.scalar text.toList else .string text)
  | .sequence _ items => (itemsData items).map .array
  | .mapping _ entries => (entriesData entries).map Json.ofEntries
  | .reference _ => none

def itemsData : List Node → Option (List Json)
  | [] => some []
  | item :: rest =>
    match data item, itemsData rest with
    | some first, some others => some (first :: others)
    | _, _ => none

def entriesData : List (Node × Node) → Option (List (String × Json))
  | [] => some []
  | (key, value) :: rest =>
    match (data key).bind text?, data value, entriesData rest with
    | some name, some first, some others => some ((name, first) :: others)
    | _, _, _ => none

end

end Node

/-- The data of a text that holds at most one document; no document is nothing. -/
def readData (text : String) : Option Json :=
  (Stream.parse? text.toList).bind (fun stream => (stream.root.map Node.data).getD (some .null))

end Yaml

namespace Json

variable {first second : List (String × Json)}

theorem lookup_reverse {entries : List (String × Json)} (distinct : (entries.map Prod.fst).Nodup)
    {name : String} {value : Json} (member : (name, value) ∈ entries) :
    entries.reverse.lookup name = some value := by
  refine Dict.lookup_of_mem ?_ (List.mem_reverse.2 member)
  rw [List.map_reverse]
  exact List.nodup_reverse.2 distinct

theorem ofEntries_inj (keys : first.map Prod.fst = second.map Prod.fst)
    (distinct : (first.map Prod.fst).Nodup) (same : ofEntries first = ofEntries second) :
    first = second := by
  have found : ∀ name, first.reverse.lookup name = second.reverse.lookup name := by
    intro name
    have entries : (SortedDict.ofList first).entries = (SortedDict.ofList second).entries := by
      simpa [ofEntries] using same
    rw [← SortedDict.get?_ofList, ← SortedDict.get?_ofList, SortedDict.get?, SortedDict.get?, entries]
  have length : first.length = second.length := by
    simpa using congrArg List.length keys
  apply List.ext_getElem length
  intro position left right
  have key : (first[position]).1 = (second[position]).1 := by
    have here := congrArg (fun names => names[position]?) keys
    simpa [left, right] using here
  have first_ : first.reverse.lookup (first[position]).1 = some (first[position]).2 :=
    lookup_reverse distinct (List.getElem_mem left)
  have second_ : second.reverse.lookup (second[position]).1 = some (second[position]).2 :=
    lookup_reverse (keys ▸ distinct) (List.getElem_mem right)
  rw [found, key, second_] at first_
  exact Prod.ext key (Option.some.inj first_).symm

theorem mem_of_mem_ofEntries {entries : List (String × Json)} {name : String} {value : Json}
    (same : ofEntries entries = .object [(name, value)]) : name ∈ entries.map Prod.fst := by
  have held : (SortedDict.ofList entries).entries = [(name, value)] := by
    simpa [ofEntries] using same
  exact List.mem_map_of_mem (SortedDict.mem_of_mem_ofList (held ▸ List.mem_singleton_self _))

end Json

namespace Wire

open Yaml (Node)

/-- Whether a text is read as itself: in quotes or a block, or plain and no number beyond the ranges
of the reader by which its style was chosen. -/
def readsAsText (text : String) : Bool :=
  Yaml.Written.style text.toList ≠ .plain || !Yaml.Core.exceeds text.toList

mutual

/-- Whether all texts and keys of a value are read as themselves, and no variant carries data. -/
def isPlainData : Wire → Bool
  | .string text => readsAsText text
  | .list items => itemsPlainData items
  | .record fields => entriesPlainData fields
  | .variant .. => false
  | _ => true

def itemsPlainData : List Wire → Bool
  | [] => true
  | item :: rest => isPlainData item && itemsPlainData rest

def entriesPlainData : List (String × Wire) → Bool
  | [] => true
  | (key, value) :: rest => readsAsText key && isPlainData value && entriesPlainData rest

end

variable {tagged : Bool}

theorem integer?_int (value : Int) : Yaml.Core.integer? (toString value).toList = some value := by
  obtain ⟨n, ⟨rfl, written⟩ | ⟨rfl, written⟩⟩ := int_cases value
  · have digit : ∀ c ∈ Nat.toDigits 10 n, c.isDigit := fun c =>
      Nat.isDigit_of_mem_toDigits (by decide) (by decide)
    have read := Yaml.Plain.digits?_decimal n
    rw [written]
    unfold Yaml.Core.integer?
    split
    · next spelled => exact absurd (digit 'o' (by simp [spelled])) (by decide)
    · next spelled => exact absurd (digit 'x' (by simp [spelled])) (by decide)
    · next spelled => exact absurd (digit '-' (by simp [spelled])) (by decide)
    · next spelled => exact absurd (digit '+' (by simp [spelled])) (by decide)
    · rw [read]
      rfl
  · rw [written, Yaml.Core.integer?, Yaml.Plain.digits?_decimal]
    rfl

theorem scalar_int (value : Int) : Yaml.Core.scalar (toString value).toList = .int value := by
  have tame := isTame_of_mem_int value
  have other : ∀ text : List Char, text.all isTame = false → (toString value).toList ≠ text := by
    rintro text wild rfl
    rw [List.all_eq_true.2 tame] at wild
    cases wild
  have notNull : Yaml.Plain.isNull (toString value).toList = false := by
    simp only [Yaml.Plain.isNull, Bool.or_eq_false_iff, decide_eq_false_iff_not]
    exact ⟨⟨⟨other _ (by decide), other _ (by decide)⟩, other _ (by decide)⟩, other _ (by decide)⟩
  have notBool : Yaml.Plain.bool? (toString value).toList = none := by
    have never (text : List Char) (wild : text.all isTame = false) :
        decide ((toString value).toList = text) = false := by
      simpa using other text wild
    simp only [Yaml.Plain.bool?, never "true".toList (by decide), never "True".toList (by decide),
      never "TRUE".toList (by decide), never "false".toList (by decide),
      never "False".toList (by decide), never "FALSE".toList (by decide)]
    rfl
  have nonempty : (toString value).toList.isEmpty = false := by
    rw [List.isEmpty_eq_false_iff]
    exact int_ne_nil value
  rw [Yaml.Core.scalar, nonempty, notNull]
  simp only [notBool, integer?_int]
  rfl

theorem data_text (text : String) (tag : Option String) :
    (Node.scalar tag (Yaml.Written.style text.toList) text).data = some (.string text) ↔
      readsAsText text := by
  by_cases plain : Yaml.Written.style text.toList = .plain
  · have kept := Yaml.Core.scalar_eq_text_iff plain
    rw [String.ofList_toList] at kept
    simp [Node.data, readsAsText, plain, kept]
  · simp [Node.data, readsAsText, plain]

theorem text?_data (key : String) {found : String}
    (read : ((Node.scalar none (Yaml.Written.style key.toList) key).data).bind Node.text?
      = some found) : found = key ∧ readsAsText key := by
  obtain ⟨data, scalar, text⟩ := Option.bind_eq_some_iff.1 read
  have held : data = .string found := by
    cases data <;> simp_all [Node.text?]
  subst held
  have same : found = key := by
    simp only [Node.data, Option.some.injEq] at scalar
    split at scalar
    · simpa using (Yaml.Core.scalar_text scalar).1
    · exact (Json.string.inj scalar).symm
  subst same
  exact ⟨rfl, (data_text _ none).1 scalar⟩

theorem entriesData_cons {key : String} {value : Wire} {fields : List (String × Wire)}
    {entries : List (String × Json)} :
    Node.entriesData (entryNodes ((key, value) :: fields)) = some entries ↔
      readsAsText key ∧ ∃ first others, (nodeOf none value).data = some first ∧
        Node.entriesData (entryNodes fields) = some others ∧ entries = (key, first) :: others := by
  rw [entryNodes, Node.entriesData]
  constructor
  · intro read
    split at read
    · next name first others named valued listed =>
      obtain ⟨rfl, text⟩ := text?_data key named
      exact ⟨text, first, others, valued, listed, (Option.some.inj read).symm⟩
    · cases read
  · rintro ⟨text, first, others, valued, listed, rfl⟩
    rw [(data_text key none).2 text, valued, listed]
    rfl

theorem entriesData_keys {fields : List (String × Wire)} {entries : List (String × Json)}
    (read : Node.entriesData (entryNodes fields) = some entries) :
    entries.map Prod.fst = fields.map Prod.fst := by
  induction fields generalizing entries with
  | nil =>
    obtain rfl := Option.some.inj read
    rfl
  | cons field fields ih =>
    obtain ⟨key, value⟩ := field
    obtain ⟨-, first, others, -, listed, rfl⟩ := entriesData_cons.1 read
    simp [ih listed]

theorem fieldsToJson_keys (fields : List (String × Wire)) :
    (fieldsToJson fields).map Prod.fst = fields.map Prod.fst := by
  rw [fieldsToJson_eq, List.map_map]
  rfl

theorem data_record_iff {fields : List (String × Wire)} (distinct : (fields.map Prod.fst).Nodup)
    (tag : Option String) :
    (nodeOf tag (.record fields)).data = some (Wire.record fields).toJson ↔
      Node.entriesData (entryNodes fields) = some (fieldsToJson fields) := by
  rw [nodeOf, Node.data, toJson, Option.map_eq_some_iff]
  constructor
  · rintro ⟨entries, read, same⟩
    have keys : entries.map Prod.fst = (fieldsToJson fields).map Prod.fst := by
      rw [entriesData_keys read, fieldsToJson_keys]
    have apart : (entries.map Prod.fst).Nodup := by
      rw [entriesData_keys read]
      exact distinct
    rwa [Json.ofEntries_inj keys apart same] at read
  · exact fun read => ⟨_, read, rfl⟩

/-- A variant is an object with one key, while what it carries has other keys or none. -/
theorem data_variant {name : String} {payload : Wire} (kind : payload.isPayload)
    (apart : name ∉ payload.names) (tag : Option String) (value : Json) :
    (nodeOf tag payload).data ≠ some (.object [(name, value)]) := by
  intro read
  cases payload with
  | string text =>
    simp only [nodeOf, Node.data, Option.some.injEq] at read
    split at read
    · exact Yaml.Core.scalar_notObject _ _ read
    · cases read
  | record fields =>
    simp only [nodeOf, Node.data, Option.map_eq_some_iff] at read
    obtain ⟨entries, read, same⟩ := read
    have key := Json.mem_of_mem_ofEntries same
    rw [entriesData_keys read] at key
    exact apart key
  | _ => cases kind

mutual

theorem data_nodeOf_iff {tagged : Bool} (value : Wire) (sound : Sound tagged value)
    (tag : Option String) : (nodeOf tag value).data = some value.toJson ↔ value.isPlainData := by
  cases value with
  | bool value => cases value <;> simp [nodeOf, Node.data, toJson, isPlainData] <;> rfl
  | int value => simpa [nodeOf, Node.data, toJson, isPlainData] using scalar_int value
  | string text => exact data_text text tag
  | list items =>
    have each := itemsData_iff items sound
    simpa [nodeOf, Node.data, toJson, isPlainData] using each
  | record fields =>
    have each := entriesData_iff fields sound.2
    rw [data_record_iff sound.1, each, isPlainData]
  | variant name payload =>
    obtain ⟨-, -, -, kind, apart, -⟩ := sound
    have other := data_variant kind apart (some (String.ofList ('!' :: name.toList))) payload.toJson
    simpa [nodeOf, toJson, isPlainData] using other

theorem itemsData_iff (items : List Wire) (sound : ItemsSound items) :
    Node.itemsData (itemNodes items) = some (itemsToJson items) ↔ itemsPlainData items := by
  cases items with
  | nil => simp [itemNodes, Node.itemsData, itemsToJson, itemsPlainData]
  | cons item items =>
    have first := data_nodeOf_iff item sound.1 none
    have others := itemsData_iff items sound.2
    rw [itemsPlainData, Bool.and_eq_true, ← first, ← others, itemNodes, Node.itemsData, itemsToJson]
    constructor
    · intro read
      split at read
      · simp_all
      · cases read
    · rintro ⟨item_, items_⟩
      rw [item_, items_]

theorem entriesData_iff (fields : List (String × Wire)) (sound : EntriesSound fields) :
    Node.entriesData (entryNodes fields) = some (fieldsToJson fields) ↔ entriesPlainData fields := by
  rcases fields with _ | ⟨⟨key, value⟩, fields⟩
  · simp [entryNodes, Node.entriesData, fieldsToJson, entriesPlainData]
  · have first := data_nodeOf_iff value sound.1 none
    have others := entriesData_iff fields sound.2
    rw [entriesPlainData, Bool.and_eq_true, Bool.and_eq_true, ← first, ← others, entriesData_cons,
      fieldsToJson]
    constructor
    · rintro ⟨text, first_, others_, valued, listed, same⟩
      simp_all
    · rintro ⟨⟨text, valued⟩, listed⟩
      exact ⟨text, _, _, valued, listed, rfl⟩

end

/-- A record's text has the data of its JSON value exactly when all of it is plain data. -/
theorem readData_toYaml_iff {fields : List (String × Wire)} (nonempty : fields ≠ [])
    (sound : Sound false (.record fields)) :
    Yaml.readData (toYaml (.record fields)) = some (Wire.record fields).toJson ↔
      isPlainData (.record fields) := by
  rw [Yaml.readData, parse?_toYaml nonempty sound]
  exact data_nodeOf_iff _ sound none

end Wire

end ApiManifest
