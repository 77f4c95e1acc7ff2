import ApiManifest.Proofs.Json.Records

/-!
OpenAPI documents from JSON texts. A text that the YAML reader can scan is read as the document it
denotes. Not every JSON text is one of these: a character that is written by its two halves is
refused.
-/

namespace ApiManifest

open Read (Always)
open JsonSyntax

namespace OpenApi

theorem location_of_name {text : String} {location : ParameterLocation}
    (found : ParameterLocation.all.find? (fun location => location.name = text) = some location) :
    text = location.name := by
  have named := List.find?_some found
  rw [decide_eq_true_eq] at named
  exact named.symm

theorem location_read {datum : Datum} {location : ParameterLocation}
    (formed : Always datum.variantForm ⟨.name location.name, none⟩) :
    Always (ParameterLocation.codec.read datum) location := by
  have chosen : Codec.select? (.name location.name)
      (ParameterLocation.all.map (fun location => (location.name, location))) = some location := by
    cases location <;> rfl
  refine formed.bind ?_
  simp only [chosen]
  exact Read.always_pure location

theorem location_agrees : Agrees ParameterLocation.codec.read ParameterLocation.ofJson? := by
  intro name anchors depth value suits _ found denotes
  obtain ⟨text, given, named⟩ := Option.bind_eq_some_iff.1 denotes
  obtain rfl := location_of_name named
  apply location_read
  match value with
  | .string pieces =>
    rw [Value.text?, JsonSyntax.Piece.string?_eq suits.read] at given
    rw [nodeShown, Value.node, Option.some.inj given, Datum.variantForm_scalar _ _ rfl]
    exact Read.always_pure _

theorem info_agrees : Agrees Info.reader Info.ofJson? := by
  intro _ anchors depth value suits _ info denotes
  simp only [Info.ofJson?, Option.bind_eq_bind, Option.bind_eq_some_iff, Option.some.injEq]
    at denotes
  obtain ⟨members, given, title, first, version, second, rfl⟩ := denotes
  obtain ⟨less, rfl, object⟩ := suits.members given
  have text (name : String) := object.gives (text_agrees name) anchors
  exact object.record (title, version, ()) (by decide)
    ⟨withDefault_given (text _) first, withDefault_given (text _) second, trivial⟩

theorem serverDefault_agrees : Agrees serverVariable serverDefault? := by
  intro _ anchors depth value suits _ text denotes
  obtain ⟨members, given, first⟩ := Option.bind_eq_some_iff.1 denotes
  obtain ⟨less, rfl, object⟩ := suits.members given
  exact object.record (text, ()) (by decide)
    ⟨withDefault_given (object.gives (text_agrees _) anchors) first, trivial⟩

theorem server_agrees : Agrees Server.reader Server.ofJson? := by
  intro _ anchors depth value suits _ server denotes
  simp only [Server.ofJson?, Option.bind_eq_bind, Option.bind_eq_some_iff, Option.some.injEq]
    at denotes
  obtain ⟨members, given, url, first, defaults, second, rfl⟩ := denotes
  obtain ⟨less, rfl, object⟩ := suits.members given
  exact object.record (url, defaults, ()) (by decide)
    ⟨mandatory_given (object.gives (text_agrees _) anchors) first,
      withDefault_given (object.gives (serverDefault_agrees.dict _) anchors) second, trivial⟩

theorem parameter_given {shown : Value → Datum} {value : Value} {members : List (String × Value)}
    {parameter : Parameter} (given : value.members? = some members)
    (texts : ∀ member ∈ members, Gives shown Reader.text Value.text? member.2)
    (locations : ∀ member ∈ members,
      Gives shown ParameterLocation.codec.read ParameterLocation.ofJson? member.2)
    (flags : ∀ member ∈ members, Gives shown Reader.flag Value.flag? member.2)
    (denotes : Parameter.ofJson? value = some parameter) :
    ∃ values, Given shown members Parameter.fields values ∧
      Parameter.ofValues values = parameter := by
  simp only [Parameter.ofJson?, given, Option.bind_eq_bind, Option.bind_some,
    Option.bind_eq_some_iff, Option.some.injEq] at denotes
  obtain ⟨name, first, location, second, required, third, rfl⟩ := denotes
  exact ⟨(name, location, required, ()), ⟨mandatory_given (fun _ inside => texts _ inside) first,
    mandatory_given (fun _ inside => locations _ inside) second,
    withDefault_given (fun _ inside => flags _ inside) third, trivial⟩, rfl⟩

theorem parameter_agrees : Agrees Parameter.reader Parameter.ofJson? := by
  intro _ anchors depth value suits _ parameter denotes
  obtain ⟨members, given, -⟩ := Option.bind_eq_some_iff.1 denotes
  obtain ⟨less, rfl, object⟩ := suits.members given
  have parts := fun member inside => object.suits member inside
  obtain ⟨values, stand, rfl⟩ := parameter_given given
    (fun member inside _ => text_agrees.plain (parts member inside))
    (fun member inside _ => location_agrees.plain (parts member inside))
    (fun member inside _ => flag_agrees.plain (parts member inside)) denotes
  exact object.record values (by decide) stand

theorem text_content {value : Value} (read : value.All Value.IsRead) :
    Gives contentShown Reader.text Value.text? value := by
  intro found denotes
  match value with
  | .string pieces =>
    rw [Value.text?, JsonSyntax.Piece.string?_eq read] at denotes
    rw [← Option.some.inj denotes]
    exact Datum.always_content_text_iff.2 rfl

theorem flag_content (value : Value) : Gives contentShown Reader.flag Value.flag? value := by
  intro found denotes
  match value with
  | .bool flag =>
    obtain rfl := Option.some.inj denotes
    exact Datum.always_content_flag_iff.2 rfl

theorem location_content {value : Value} (read : value.All Value.IsRead) :
    Gives contentShown ParameterLocation.codec.read ParameterLocation.ofJson? value := by
  intro found denotes
  obtain ⟨text, given, named⟩ := Option.bind_eq_some_iff.1 denotes
  obtain rfl := location_of_name named
  apply location_read
  match value with
  | .string pieces =>
    rw [Value.text?, JsonSyntax.Piece.string?_eq read] at given
    rw [contentShown, Value.content, Option.some.inj given, Datum.variantForm_text]
    exact Read.always_pure _

theorem parameter_content {depth : Nat} {value : Value} {members : List (String × Value)}
    {parameter : Parameter} (object : IsObject depth value members)
    (given : value.members? = some members) (denotes : Parameter.ofJson? value = some parameter) :
    Always (Parameter.reader (contentShown value)) parameter := by
  have read := fun member inside => (object.suits member inside).read
  obtain ⟨values, stand, rfl⟩ := parameter_given given
    (fun member inside => text_content (read member inside))
    (fun member inside => location_content (read member inside))
    (fun member _ => flag_content member.2) denotes
  exact object.record_content values (by decide) stand

/-- Whatever stands beside its target, a reference is read. -/
theorem reference_content {members : List (String × Value)} {target : Value} {text : String}
    (distinct : (members.map Prod.fst).Nodup) (found : members.lookup "$ref" = some target)
    (read : target.All Value.IsRead) (denotes : target.text? = some text) :
    Always (ParameterUse.referenceReader (.content (.map (members.map contentEntry))))
      (.reference text) := by
  have given : Given contentShown members targetField (text, ()) :=
    ⟨by rw [show members.lookup (Field.required "$ref" Reader.text).name = some target from found]
        exact .inr ⟨_, rfl, text_content read text denotes⟩, trivial⟩
  have holds := holds_of_given given (by decide)
    (fun index name _ => standing_fieldEntry contentShown distinct index name)
  obtain ⟨others, named⟩ := always_namedFields rfl recordForm_contents holds
  rw [referenceReader_eq]
  exact named.map _

theorem never_reference_content {members : List (String × Value)}
    (none_ : members.lookup "$ref" = none) :
    Read.Never (ParameterUse.referenceReader (.content (.map (members.map contentEntry)))) := by
  have other : ∀ entry ∈ members.map contentEntry, ∀ key,
      (key = .name "$ref" ∨ key = .number 0) → entry.1.fieldKey? ≠ some key := by
    intro entry inside key kind
    obtain ⟨member, listed, rfl⟩ := List.mem_map.1 inside
    have different : member.1 ≠ "$ref" := by
      have passed := List.lookup_eq_none_iff.1 none_ member listed
      rw [bne_iff_ne] at passed
      exact passed.symm
    rcases kind with rfl | rfl <;> simp [contentEntry, Content.fieldKey?, different]
  rcases settled_reference with ⟨use, always⟩ | never
  · refine absurd ?_ (target_of_reference always).2
    rw [selected, under_eq_nil (fun entry inside => other entry inside _ (.inl rfl)),
      under_eq_nil (fun entry inside => other entry inside _ (.inr rfl)), List.append_nil]
  · exact never

theorem parameterUse_agrees : AgreesAt "parameters" ParameterUse.reader ParameterUse.ofJson? := by
  intro anchors depth value suits fits use denotes
  obtain ⟨members, given, denotes⟩ := Option.bind_eq_some_iff.1 denotes
  have typed : Always (Datum.typed (nodeShown anchors depth value)) value.content :=
    value.typed (fits (by decide)) suits.deep
  obtain ⟨less, rfl, object⟩ := suits.members given
  refine typed.bind ?_
  rw [object.content, Read.always_orElse_iff settled_reference]
  split at denotes
  · next target found =>
    obtain ⟨text, isText, rfl⟩ := Option.map_eq_some_iff.1 denotes
    have read := (object.suits _ (Dict.mem_of_lookup found)).read
    exact .inl (reference_content object.distinct found read isText)
  · next none_ =>
    obtain ⟨parameter, inline, rfl⟩ := Option.map_eq_some_iff.1 denotes
    have read := parameter_content object given inline
    rw [contentShown, object.content] at read
    exact .inr ⟨never_reference_content none_, read.map _⟩

theorem requirement_agrees : Agrees Requirement.reader Requirement.ofJson? :=
  text_agrees.list.dict

theorem operation_agrees : Agrees Operation.reader Operation.ofJson? := by
  intro _ anchors depth value suits _ operation denotes
  simp only [Operation.ofJson?, Option.bind_eq_bind, Option.bind_eq_some_iff, Option.some.injEq]
    at denotes
  obtain ⟨members, given, id, first, parameters, second, security, third, extension, fourth, rfl⟩ :=
    denotes
  obtain ⟨less, rfl, object⟩ := suits.members given
  exact object.record (id, parameters, security, extension, ()) (by decide)
    ⟨optional_given (object.gives (text_agrees _) anchors) first,
      withDefault_given (object.gives parameterUse_agrees.list anchors) second,
      optional_given (object.gives (requirement_agrees.list _) anchors) third,
      optional_given (object.gives json_agrees anchors) fourth, trivial⟩

theorem pathItem_agrees : Agrees PathItem.reader PathItem.ofJson? := by
  intro _ anchors depth value suits _ item denotes
  simp only [PathItem.ofJson?, Option.bind_eq_bind, Option.bind_eq_some_iff, Option.some.injEq]
    at denotes
  obtain ⟨members, given, parameters, uses, get, one, put, two, post, three, delete, four,
    options, five, head, six, patch, seven, trace, eight, extension, kept, rfl⟩ := denotes
  obtain ⟨less, rfl, object⟩ := suits.members given
  have verb (name : String) := object.gives (operation_agrees name) anchors
  exact object.record
    (parameters, get, put, post, delete, options, head, patch, trace, extension, ()) (by decide)
    ⟨withDefault_given (object.gives parameterUse_agrees.list anchors) uses,
      optional_given (verb _) one, optional_given (verb _) two, optional_given (verb _) three,
      optional_given (verb _) four, optional_given (verb _) five, optional_given (verb _) six,
      optional_given (verb _) seven, optional_given (verb _) eight,
      optional_given (object.gives json_agrees anchors) kept, trivial⟩

theorem securityScheme_agrees : Agrees SecurityScheme.reader SecurityScheme.ofJson? := by
  intro _ anchors depth value suits _ scheme denotes
  simp only [SecurityScheme.ofJson?, Option.bind_eq_bind, Option.bind_eq_some_iff,
    Option.some.injEq] at denotes
  obtain ⟨members, given, kind, first, location, second, name, third, url, fourth, rfl⟩ := denotes
  obtain ⟨less, rfl, object⟩ := suits.members given
  have text (name : String) := object.gives (text_agrees name) anchors
  exact object.record (kind, location, name, url, ()) (by decide)
    ⟨mandatory_given (text _) first, optional_given (text _) second, optional_given (text _) third,
      optional_given (text _) fourth, trivial⟩

theorem components_agrees : Agrees Components.reader Components.ofJson? := by
  intro _ anchors depth value suits _ components denotes
  simp only [Components.ofJson?, Option.bind_eq_bind, Option.bind_eq_some_iff, Option.some.injEq]
    at denotes
  obtain ⟨members, given, parameters, first, schemes, second, rfl⟩ := denotes
  obtain ⟨less, rfl, object⟩ := suits.members given
  exact object.record (parameters, schemes, ()) (by decide)
    ⟨withDefault_given (object.gives (parameter_agrees.dict _) anchors) first,
      withDefault_given (object.gives (securityScheme_agrees.dict _) anchors) second, trivial⟩

theorem document_agrees : Agrees Document.reader Document.ofJson? := by
  intro _ anchors depth value suits _ document denotes
  simp only [Document.ofJson?, Option.bind_eq_bind, Option.bind_eq_some_iff, Option.some.injEq]
    at denotes
  obtain ⟨members, given, version, first, info, second, servers, third, paths, fourth,
    components, fifth, security, sixth, extension, seventh, rfl⟩ := denotes
  obtain ⟨less, rfl, object⟩ := suits.members given
  exact object.record (version, info, servers, paths, components, security, extension, ())
    (by decide)
    ⟨withDefault_given (object.gives (text_agrees _) anchors) first,
      withDefault_given (object.gives (info_agrees _) anchors) second,
      withDefault_given (object.gives (server_agrees.list _) anchors) third,
      withDefault_given (object.gives (pathItem_agrees.dict _) anchors) fourth,
      withDefault_given (object.gives (components_agrees _) anchors) fifth,
      optional_given (object.gives (requirement_agrees.list _) anchors) sixth,
      optional_given (object.gives json_agrees anchors) seventh, trivial⟩

/-- The scan takes the text, nothing stands too deep in it, and the numbers that are kept are in
the ranges that are known. -/
structure IsReadable (text : Text) : Prop where
  scanned : text.IsRead
  shallow : text.root.depth ≤ 128
  kept : text.root.All Value.keptFits

instance : DecidablePred IsReadable := fun _ =>
  decidable_of_iff (_ ∧ _ ∧ _)
    ⟨fun ⟨scanned, shallow, kept⟩ => ⟨scanned, shallow, kept⟩,
      fun ⟨scanned, shallow, kept⟩ => ⟨scanned, shallow, kept⟩⟩

/-- A readable JSON text whose keys differ is read as the document that it denotes. -/
theorem parse?_written {text : Text} {document : Document} (readable : IsReadable text)
    (keys : text.root.All Value.keysDiffer)
    (denotes : Document.ofJson? text.root = some document) :
    Document.parse? text.written = some document := by
  have object : text.root.members?.isSome := by
    obtain ⟨members, given, -⟩ := Option.bind_eq_some_iff.1 denotes
    rw [given]
    rfl
  have suits : text.root.Suits 128 :=
    ⟨readable.scanned.root, keys, readable.kept, readable.shallow⟩
  have stream := Text.parse?_spelled readable.scanned object
  have read : Always (Document.reader (nodeShown {} 128 text.root)) document :=
    document_agrees.plain suits denotes
  unfold nodeShown at read
  unfold Document.parse? Reader.ofText? Text.written
  simp only [String.toList_ofList, stream, Option.bind_eq_bind, Option.bind_some,
    Option.getD_some, read _]

namespace Petstore

def bare (text : String) : List JsonSyntax.Piece :=
  text.toList.filterMap (fun c =>
    if stands : 0x20 ≤ c.toNat ∧ c ≠ '"' ∧ c ≠ '\\' then some (.bare c stands) else none)

def nothing : Space := ⟨[], by simp⟩

def blank : Space := ⟨[' '], by simp [Json.isSpace]⟩

def key (name : String) : Key := ⟨bare name, nothing, blank⟩

def text (title : List JsonSyntax.Piece) : Text where
  lead := nothing
  root := .object nothing
    (.more (key "openapi") (.string (bare "3.0.2")) nothing blank <|
      .more (key "info")
        (.object nothing
          (.more (key "title") (.string title) nothing blank <|
            .last (key "version") (.string (bare "1.0.0")) nothing))
        nothing blank <|
      .last (key "paths") (.emptyObject nothing) nothing)
  trail := nothing

def document (title : String) : Document where
  version := "3.0.2"
  info := ⟨title, "1.0.0"⟩
  servers := []
  paths := .empty
  components := ⟨.empty, .empty⟩
  security := none
  extension := none

def accented : JsonSyntax.Piece :=
  .unit ⟨['0', '0', 'e', '9'], 0xe9, rfl, by decide⟩

def halves : List JsonSyntax.Piece :=
  [.unit ⟨['d', '8', '3', 'd'], 0xd83d, rfl, by decide⟩,
    .unit ⟨['d', 'e', '0', '0'], 0xde00, rfl, by decide⟩]

theorem unit_parsed :
    IsReadable (text (bare "Caf" ++ [accented])) ∧
      (text (bare "Caf" ++ [accented])).root.All Value.keysDiffer ∧
      Document.ofJson? (text (bare "Caf" ++ [accented])).root = some (document "Café") ∧
      Document.parse? (text (bare "Caf" ++ [accented])).written = some (document "Café") := by
  have readable : IsReadable (text (bare "Caf" ++ [accented])) := by decide +kernel
  have keys : (text (bare "Caf" ++ [accented])).root.All Value.keysDiffer := by decide +kernel
  have denotes : Document.ofJson? (text (bare "Caf" ++ [accented])).root
      = some (document "Café") := by decide +kernel
  exact ⟨readable, keys, denotes, parse?_written readable keys denotes⟩

/-- The document is not read at all if its title has such a character. -/
theorem halves_not_parsed :
    (text (bare "Pets " ++ halves)).root.All Value.keysDiffer ∧
      Document.ofJson? (text (bare "Pets " ++ halves)).root = some (document "Pets 😀") ∧
      Document.parse? (text (bare "Pets " ++ halves)).written = none := by
  decide +kernel

end Petstore

end OpenApi

end ApiManifest
