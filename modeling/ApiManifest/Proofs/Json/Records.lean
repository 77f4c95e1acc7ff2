import ApiManifest.Proofs.Json.Contents
import ApiManifest.Proofs.Json.Decoding
import ApiManifest.Proofs.ParameterPlaces

/-!
Readers at the nodes of JSON values. A reader agrees with a decoder if it gives whatever the
decoder says that a value denotes. Lists, dictionaries and records agree where their parts do.
-/

namespace ApiManifest

open Read (Always)
open Yaml (Node)

variable {α σ : Type}

namespace Fields

def fieldNames : {σ : Type} → Fields Field σ → List String
  | _, .nil => []
  | _, .cons field rest => field.name :: rest.fieldNames

end Fields

namespace JsonSyntax

def nodeShown (anchors : Yaml.Anchors) (depth : Nat) (value : Value) : Datum :=
  .node ⟨anchors, depth, false⟩ value.node

def contentShown (value : Value) : Datum :=
  .content value.content

/-- The field has that value where this member stands for it, shown as a datum. -/
def FieldGiven (shown : Value → Datum) (member : Option Value) (field : Field α) (value : α) :
    Prop :=
  field.Holds (member.map shown).toList value

def Given (shown : Value → Datum) (members : List (String × Value)) :
    {σ : Type} → Fields Field σ → σ → Prop
  | _, .nil, _ => True
  | _, .cons field rest, (value, values) =>
    FieldGiven shown (members.lookup field.name) field value ∧ Given shown members rest values

def fieldEntry (shown : Value → Datum) (member : String × Value) : FieldKey × Datum :=
  (.name member.1, shown member.2)

theorem standing_fieldEntry (shown : Value → Datum) {members : List (String × Value)}
    (distinct : (members.map Prod.fst).Nodup) (index : Nat) (name : String) :
    Fields.standing index name (members.map (fieldEntry shown))
      = ((members.lookup name).map shown).toList := by
  induction members with
  | nil => rfl
  | cons member members ih =>
    obtain ⟨key, value⟩ := member
    rw [List.map_cons, List.nodup_cons] at distinct
    have later := ih distinct.2
    by_cases same : name = key
    · have none_ : members.lookup name = none := by
        rw [List.lookup_eq_none_iff]
        intro other inside
        rw [bne_iff_ne, same]
        intro equal
        have listed : other.1 ∈ members.map Prod.fst := List.mem_map_of_mem inside
        exact distinct.1 (equal ▸ listed)
      rw [none_] at later
      rw [Dict.lookup_entry, if_pos same]
      simpa [Fields.standing, Fields.selects, fieldEntry, same] using later
    · rw [Dict.lookup_entry, if_neg same, ← later]
      simp [Fields.standing, Fields.selects, fieldEntry, Ne.symm same]

/-- The index counts the fields in front, as no two fields have the same name. -/
theorem holds_of_given {shown : Value → Datum} {members : List (String × Value)}
    {fields : Fields Field σ} {values : σ} (given : Given shown members fields values)
    (named : fields.fieldNames.Nodup) {entries : List (FieldKey × Datum)}
    (stand : ∀ index, ∀ name ∈ fields.fieldNames,
      Fields.standing index name entries = ((members.lookup name).map shown).toList) :
    fields.Holds entries values := by
  induction fields generalizing entries with
  | nil => trivial
  | cons field rest ih =>
    obtain ⟨value, values⟩ := values
    obtain ⟨first, later⟩ := given
    rw [Fields.fieldNames, List.nodup_cons] at named
    have here := stand 0 field.name (by simp [Fields.fieldNames])
    refine ⟨?_, ih later named.2 fun index name inside => ?_⟩
    · rw [Fields.own_eq_standing, here]
      exact first
    · have other : name ≠ field.name := fun same => named.1 (same ▸ inside)
      rw [Fields.standing_others index field other]
      exact stand (index + 1) name (by simp [Fields.fieldNames, inside])

theorem always_fields {name : String} {fields : Fields Field σ} {datum : Datum}
    {entries : List (FieldKey × Datum)} {values : σ} (direct : datum.isDirect)
    (formed : Always (datum.recordForm ("struct " ++ name)) (.named entries))
    (holds : fields.Holds entries values) : Always (Reader.fields name fields datum) values := by
  unfold Reader.fields
  rw [Datum.force_direct direct, pure_bind]
  exact formed.bind (Fields.always_readNamed holds)

theorem always_namedFields {expected : String} {fields : Fields Field σ} {datum : Datum}
    {entries : List (FieldKey × Datum)} {values : σ} (direct : datum.isDirect)
    (formed : Always (datum.recordForm expected) (.named entries))
    (holds : fields.Holds entries values) :
    ∃ others, Always (Reader.namedFields expected false fields datum) (values, others) := by
  obtain ⟨filled, fills, finished⟩ := Fields.exists_fills holds
  obtain ⟨passed, done⟩ := Fields.always_fillAll fills
  refine ⟨passed, ?_⟩
  unfold Reader.namedFields
  rw [Datum.force_direct direct, pure_bind]
  exact formed.bind (done.bind (finished.map _))

section Forms

variable {anchors : Yaml.Anchors} {depth : Nat} {expected : String}
  {members : List (String × Value)}

theorem always_entries {β : Type} (make : String → Datum → β) :
    Always ((members.map nodeEntry).mapM (fun entry => do
        return make (← (Datum.node ⟨anchors, depth, false⟩ entry.1).text)
          (.node ⟨anchors, depth, false⟩ entry.2)))
      (members.map (fun member => make member.1 (nodeShown anchors depth member.2))) := by
  apply Read.always_mapM
  rw [List.forall₂_map_left_iff, List.forall₂_map_right_iff, List.forall₂_same]
  intro member _
  exact ((Datum.always_text_iff rfl).2 rfl).map _

theorem recordForm_nodes : Always (Datum.recordForm expected
      (.node ⟨anchors, depth + 1, false⟩ (.mapping none (members.map nodeEntry))))
    (.named (members.map (fieldEntry (nodeShown anchors depth)))) := by
  have keyed := @always_entries anchors depth members _
    (fun name datum => (FieldKey.name name, datum))
  rw [Datum.recordForm_mapping]
  exact (Datum.always_inside_iff.2 ⟨depth, rfl, rfl⟩).bind (keyed.map RecordForm.named)

theorem recordForm_contents :
    Always (Datum.recordForm expected (.content (.map (members.map contentEntry))))
      (.named (members.map (fieldEntry contentShown))) := by
  have keyed : Always ((members.map contentEntry).mapM Datum.keyedContent)
      (members.map (fieldEntry contentShown)) := by
    apply Read.always_mapM
    rw [List.forall₂_map_left_iff, List.forall₂_map_right_iff, List.forall₂_same]
    intro member _
    exact Datum.always_keyedContent_iff.2 ⟨rfl, rfl⟩
  rw [Datum.recordForm_contents]
  exact keyed.map RecordForm.named

end Forms

section Suiting

/-- What is kept as it is, with the types of its scalars. -/
def keptNames : List String :=
  ["x-kuadrant", "parameters"]

def Value.keptFits : Value → Prop
  | .object _ members => ∀ member ∈ members.toList, ∀ name ∈ keptNames,
    Piece.string? member.1.pieces = some name → member.2.All Value.numberFits
  | _ => True

instance : DecidablePred Value.keptFits
  | .object _ members => inferInstanceAs (Decidable (∀ member ∈ members.toList,
    ∀ name ∈ keptNames, Piece.string? member.1.pieces = some name →
      member.2.All Value.numberFits))
  | .null | .bool _ | .number _ | .string _ | .emptyArray _ | .array .. | .emptyObject _ =>
    inferInstanceAs (Decidable True)

/-- The value is read where so many collections may stand inside each other. -/
structure Value.Suits (depth : Nat) (value : Value) : Prop where
  read : value.All Value.IsRead
  keys : value.All Value.keysDiffer
  kept : value.All Value.keptFits
  deep : value.depth ≤ depth

theorem Value.all_items {holds : Value → Prop} {value : Value} {items : List Value}
    (all : value.All holds) (given : value.items? = some items) :
    ∀ item ∈ items, item.All holds := by
  match value with
  | .emptyArray inside =>
    obtain rfl := Option.some.inj given
    simp
  | .array before some_ =>
    obtain rfl := Option.some.inj given
    exact some_.all_toList all.2

theorem Value.Suits.items {value : Value} {depth : Nat} {items : List Value}
    (suits : value.Suits depth) (given : value.items? = some items) :
    ∃ less, depth = less + 1 ∧ value.node = .sequence none (items.map Value.node) ∧
      ∀ item ∈ items, item.Suits less := by
  have deep := suits.deep
  match value with
  | .emptyArray inside =>
    obtain rfl := Option.some.inj given
    obtain ⟨less, rfl, -⟩ := exists_less deep
    exact ⟨less, rfl, rfl, by simp⟩
  | .array before some_ =>
    obtain rfl := Option.some.inj given
    obtain ⟨less, rfl, room⟩ := exists_less deep
    refine ⟨less, rfl, congrArg (Node.sequence none) some_.nodes_eq, fun item member => ?_⟩
    exact ⟨Value.all_items suits.read rfl item member, Value.all_items suits.keys rfl item member,
      Value.all_items suits.kept rfl item member, (some_.depth_le item member).trans room⟩

/-- The value is an object of these members, each of which is read in its place. -/
structure IsObject (depth : Nat) (value : Value) (members : List (String × Value)) : Prop where
  node : value.node = .mapping none (members.map nodeEntry)
  content : value.content = .map (members.map contentEntry)
  distinct : (members.map Prod.fst).Nodup
  suits : ∀ member ∈ members, member.2.Suits depth
  fits : ∀ member ∈ members, member.1 ∈ keptNames → member.2.All Value.numberFits

theorem Members.named_eq {members : Members} {found : List (String × Value)}
    (keys : ∀ member ∈ members.toList, member.1.IsRead)
    (given : members.toList.mapM (fun member =>
      (Piece.string? member.1.pieces).map (fun key => (key, member.2))) = some found) :
    found = members.named := by
  unfold Members.named
  generalize members.toList = list at keys given
  induction list generalizing found with
  | nil => exact (Option.some.inj given).symm
  | cons member list ih =>
    have name := Piece.string?_eq (keys member (by simp)).pieces
    simp only [List.mapM_cons, name, Option.map_some, Option.bind_eq_bind, Option.bind_some,
      Option.bind_eq_some_iff, Option.pure_def, Option.some.injEq] at given
    obtain ⟨others, given, rfl⟩ := given
    rw [ih (fun other inside => keys other (by simp [inside])) given]
    rfl

theorem Members.named_distinct {members : Members}
    (keys : ∀ member ∈ members.toList, member.1.IsRead)
    (differ : (members.toList.map (fun member => Piece.text? member.1.pieces)).Nodup) :
    (members.named.map Prod.fst).Nodup := by
  have same : members.toList.map (fun member => Piece.text? member.1.pieces)
      = (members.named.map Prod.fst).map (fun name => some name.toList) := by
    unfold Members.named
    rw [List.map_map, List.map_map]
    apply List.map_congr_left
    intro member inside
    simp [Piece.text?_eq (keys member inside).pieces, Key.name]
  rw [same] at differ
  exact differ.of_map _

theorem Value.Suits.members {value : Value} {depth : Nat} {members : List (String × Value)}
    (suits : value.Suits depth) (given : value.members? = some members) :
    ∃ less, depth = less + 1 ∧ IsObject less value members := by
  have deep := suits.deep
  match value with
  | .emptyObject inside =>
    obtain rfl := Option.some.inj given
    obtain ⟨less, rfl, -⟩ := exists_less deep
    exact ⟨less, rfl, rfl, rfl, by simp, by simp, by simp⟩
  | .object before some_ =>
    have keys : ∀ member ∈ some_.toList, member.1.IsRead := suits.read.1
    obtain rfl := Members.named_eq keys given
    obtain ⟨less, rfl, room⟩ := exists_less deep
    refine ⟨less, rfl, congrArg (Node.mapping none) some_.nodes_eq,
      congrArg Content.map some_.contents_eq, Members.named_distinct keys suits.keys.1, ?_, ?_⟩
    · intro member inside
      obtain ⟨entry, listed, rfl⟩ := List.mem_map.1 inside
      exact ⟨some_.all_toList suits.read.2 entry listed, some_.all_toList suits.keys.2 entry listed,
        some_.all_toList suits.kept.2 entry listed, (some_.depth_le entry listed).trans room⟩
    · intro member inside kept
      obtain ⟨entry, listed, rfl⟩ := List.mem_map.1 inside
      have named := Piece.string?_eq (keys entry listed).pieces
      exact suits.kept.1 entry listed entry.1.name kept named

end Suiting

section Agreement

/-- The reader gives what the decoder says that the value denotes, shown as a datum. -/
def Gives (shown : Value → Datum) (reader : Reader α) (decode : Decoder α) (value : Value) :
    Prop :=
  ∀ found, decode value = some found → Always (reader (shown value)) found

def AgreesAt (name : String) (reader : Reader α) (decode : Decoder α) : Prop :=
  ∀ anchors depth value, value.Suits depth → (name ∈ keptNames → value.All Value.numberFits) →
    Gives (nodeShown anchors depth) reader decode value

/-- Wherever a value may stand, the reader gives what it denotes. -/
def Agrees (reader : Reader α) (decode : Decoder α) : Prop :=
  ∀ name, AgreesAt name reader decode

theorem Agrees.plain {reader : Reader α} {decode : Decoder α} (agrees : Agrees reader decode)
    {anchors : Yaml.Anchors} {depth : Nat} {value : Value} {found : α} (suits : value.Suits depth)
    (denotes : decode value = some found) : Always (reader (nodeShown anchors depth value)) found :=
  agrees "" anchors depth value suits (fun kept => absurd kept (by decide)) found denotes

/-- The members of an object agree with the values that stand for fields. -/
theorem IsObject.gives {name : String} {reader : Reader α} {decode : Decoder α} {depth : Nat}
    {value : Value} {members : List (String × Value)} (object : IsObject depth value members)
    (agrees : AgreesAt name reader decode) (anchors : Yaml.Anchors) :
    ∀ member, (name, member) ∈ members →
      Gives (nodeShown anchors depth) reader decode member :=
  fun member inside => agrees anchors depth member (object.suits _ inside) (object.fits _ inside)

theorem always_each {β γ δ : Type} {step : γ → Read δ} {change : β → γ} {decode : β → Option δ}
    {items : List β} {found : List δ}
    (gives : ∀ item ∈ items, ∀ value, decode item = some value → Always (step (change item)) value)
    (denotes : items.mapM decode = some found) : Always ((items.map change).mapM step) found := by
  induction items generalizing found with
  | nil =>
    obtain rfl := Option.some.inj denotes
    exact Read.always_pure []
  | cons item items ih =>
    simp only [List.mapM_cons, Option.bind_eq_bind, Option.bind_eq_some_iff, Option.pure_def,
      Option.some.injEq] at denotes
    obtain ⟨value, first, others, later, rfl⟩ := denotes
    have rest := ih (fun other member => gives other (List.mem_cons_of_mem item member)) later
    rw [List.map_cons, List.mapM_cons]
    exact (gives item (by simp) value first).bind (rest.map _)

section Members

variable {shown : Value → Datum} {name : String} {reader : Reader α} {decode : Decoder α}
  {members : List (String × Value)}

theorem mandatory_given {value : α}
    (gives : ∀ member, (name, member) ∈ members → Gives shown reader decode member)
    (found : mandatory name decode members = some value) :
    FieldGiven shown (members.lookup name) (.required name reader) value := by
  obtain ⟨member, inside, denotes⟩ := Option.bind_eq_some_iff.1 found
  rw [inside]
  exact .inr ⟨shown member, rfl, gives member (Dict.mem_of_lookup inside) value denotes⟩

theorem withDefault_given {value default : α}
    (gives : ∀ member, (name, member) ∈ members → Gives shown reader decode member)
    (found : withDefault name decode default members = some value) :
    FieldGiven shown (members.lookup name) (.withDefault name reader default) value := by
  unfold withDefault at found
  split at found
  · next member inside =>
    rw [inside]
    exact .inr ⟨shown member, rfl, gives member (Dict.mem_of_lookup inside) value found⟩
  · next none_ =>
    rw [none_]
    exact .inl ⟨rfl, found⟩

/-- None is read exactly where null stands. -/
theorem always_isNull (anchors : Yaml.Anchors) (depth : Nat) (value : Value) :
    Always (nodeShown anchors depth value).isNull value.isNull := by
  match value with
  | .null => exact Read.always_pure _
  | .bool flag => cases flag <;> exact Read.always_pure _
  | .number numeral =>
    have other := numeral.isNull_chars
    have some_ : (String.ofList numeral.chars).isEmpty = false := by
      obtain ⟨c, rest, first, -⟩ := numeral.chars_cases
      simp [first]
    change Always (pure ((String.ofList numeral.chars).isEmpty
      || Yaml.Plain.isNull (String.ofList numeral.chars).toList)) false
    rw [String.toList_ofList, other, some_]
    exact Read.always_pure _
  | .string pieces => exact Read.always_pure _
  | .emptyArray inside => exact Read.always_pure _
  | .array before items => exact Read.always_pure _
  | .emptyObject inside => exact Read.always_pure _
  | .object before members => exact Read.always_pure _

theorem always_option {anchors : Yaml.Anchors} {depth : Nat} {value : Value} {found : Option α}
    (given : if value.isNull then found = none
      else ∃ result, found = some result ∧ Always (reader (nodeShown anchors depth value)) result) :
    Always (Reader.option reader (nodeShown anchors depth value)) found := by
  have direct : (nodeShown anchors depth value).isDirect := by
    cases value <;> rfl
  have null := always_isNull anchors depth value
  unfold Reader.option
  rw [Datum.force_direct direct, pure_bind]
  split at given
  · next isNull =>
    rw [isNull] at null
    rw [given]
    exact null.bind (Read.always_pure none)
  · next notNull =>
    rw [Bool.not_eq_true] at notNull
    rw [notNull] at null
    obtain ⟨result, rfl, read⟩ := given
    exact null.bind (read.map some)

theorem optional_given {anchors : Yaml.Anchors} {depth : Nat} {value : Option α}
    (gives : ∀ member, (name, member) ∈ members →
      Gives (nodeShown anchors depth) reader decode member)
    (found : optional name decode members = some value) :
    FieldGiven (nodeShown anchors depth) (members.lookup name) (.optional name reader) value := by
  unfold optional at found
  split at found
  · next member inside =>
    rw [inside]
    refine .inr ⟨_, rfl, always_option ?_⟩
    split at found
    · next isNull => simpa [isNull] using found.symm
    · next notNull =>
      obtain ⟨result, denotes, rfl⟩ := Option.map_eq_some_iff.1 found
      have read := gives member (Dict.mem_of_lookup inside) result denotes
      simpa [notNull] using read
  · next none_ =>
    rw [none_]
    exact .inl ⟨rfl, found⟩

end Members

theorem text_agrees : Agrees Reader.text Value.text? := by
  intro name anchors depth value suits _ found denotes
  match value with
  | .string pieces =>
    have same : Piece.string? pieces = some found := denotes
    rw [Piece.string?_eq suits.read] at same
    exact (Datum.always_text_iff rfl).2 same

theorem flag_agrees : Agrees Reader.flag Value.flag? := by
  intro name anchors depth value suits _ found denotes
  match value with
  | .bool flag =>
    obtain rfl := Option.some.inj denotes
    cases flag <;> exact Read.always_pure _

theorem json_agrees : AgreesAt "x-kuadrant" Reader.json Value.json? := by
  intro anchors depth value suits fits found denotes
  exact value.data suits.read (fits (by decide)) suits.deep denotes

theorem AgreesAt.list {name : String} {reader : Reader α} {decode : Decoder α}
    (agrees : AgreesAt name reader decode) : AgreesAt name (Reader.list reader) (list decode) := by
  intro anchors depth value suits fits found denotes
  obtain ⟨items, given, denotes⟩ := Option.bind_eq_some_iff.1 denotes
  obtain ⟨less, rfl, node, inner⟩ := suits.items given
  have shown : Always (nodeShown anchors (less + 1) value).items
      (items.map (nodeShown anchors less)) := by
    have same : items.map (nodeShown anchors less)
        = (items.map Value.node).map (.node ⟨anchors, less, false⟩) := by
      rw [List.map_map]
      rfl
    rw [same, nodeShown, node, Datum.items, Datum.force_direct rfl, pure_bind]
    exact (Datum.always_inside_iff.2 ⟨less, rfl, rfl⟩).map _
  refine shown.bind (always_each (fun item member => ?_) denotes)
  exact agrees anchors less item (inner item member)
    (fun kept => Value.all_items (fits kept) given item member)

theorem Agrees.list {reader : Reader α} {decode : Decoder α} (agrees : Agrees reader decode) :
    Agrees (Reader.list reader) (list decode) :=
  fun name => (agrees name).list

theorem IsObject.entries {anchors : Yaml.Anchors} {depth : Nat} {value : Value}
    {members : List (String × Value)} (object : IsObject depth value members) :
    Always (nodeShown anchors (depth + 1) value).entries
      (members.map (fun member => (member.1, nodeShown anchors depth member.2))) := by
  rw [nodeShown, object.node, Datum.entries, Datum.force_direct rfl, pure_bind]
  exact (Datum.always_inside_iff.2 ⟨depth, rfl, rfl⟩).bind (always_entries Prod.mk)

theorem Agrees.dict {reader : Reader α} {decode : Decoder α} (agrees : Agrees reader decode) :
    Agrees (Reader.dict reader) (dict decode) := by
  intro name anchors depth value suits _ found denotes
  obtain ⟨members, given, denotes⟩ := Option.bind_eq_some_iff.1 denotes
  obtain ⟨entries, each, denotes⟩ := Option.bind_eq_some_iff.1 denotes
  obtain ⟨less, rfl, object⟩ := suits.members given
  split at denotes
  · next distinct =>
    obtain rfl := Option.some.inj denotes
    have read : Always (Reader.entries reader (nodeShown anchors (less + 1) value)) entries := by
      refine object.entries.bind (always_each (fun member inside entry decoded => ?_) each)
      obtain ⟨result, inner, rfl⟩ := Option.map_eq_some_iff.1 decoded
      exact (agrees.plain (object.suits member inside) inner).map _
    rw [← Dict.ofList_distinct distinct]
    exact read.map Dict.ofList
  · cases denotes

section Records

variable {τ : Type} {name : String} {fields : Fields Field σ} {change : σ → τ} {depth : Nat}
  {value : Value} {members : List (String × Value)} (object : IsObject depth value members)
  (values : σ) (named : fields.fieldNames.Nodup)
include object named

theorem IsObject.record {anchors : Yaml.Anchors}
    (given : Given (nodeShown anchors depth) members fields values) :
    Always (Reader.map change (Reader.fields name fields) (nodeShown anchors (depth + 1) value))
      (change values) := by
  have holds := holds_of_given given named
    (fun index name _ => standing_fieldEntry (nodeShown anchors depth) object.distinct index name)
  rw [nodeShown, object.node]
  exact (always_fields rfl recordForm_nodes holds).map change

theorem IsObject.record_content (given : Given contentShown members fields values) :
    Always (Reader.map change (Reader.fields name fields) (contentShown value))
      (change values) := by
  have holds := holds_of_given given named
    (fun index name _ => standing_fieldEntry contentShown object.distinct index name)
  rw [contentShown, object.content]
  exact (always_fields rfl recordForm_contents holds).map change

end Records

end Agreement

end JsonSyntax

end ApiManifest
