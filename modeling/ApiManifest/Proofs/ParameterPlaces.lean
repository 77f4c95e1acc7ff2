import ApiManifest.Proofs.Lists
import ApiManifest.Proofs.TypedContent

/-!
A parameter may be declared under a name of its own or stand where it is used, and there its
mapping is read from typed content. The two readings of one mapping agree exactly if what the
mapping says has the types that the fields of a parameter have.
-/

namespace ApiManifest

open Read (Always Never Settled)
open Yaml (Node)

namespace OpenApi

open Datum (IsTyped IsEntryTyped IsKeyed IsContentKeyed)

namespace Parameter

def fields : Fields Field (String × ParameterLocation × Bool × Unit) :=
  .cons (.required "name" Reader.text) <|
    .cons (.required "in" ParameterLocation.codec.read) <|
    .cons (.withDefault "required" Reader.flag false) .nil

def ofValues : String × ParameterLocation × Bool × Unit → Parameter :=
  fun (name, location, required, ()) => { name, location, required }

theorem reader_eq : reader = Reader.map ofValues (Reader.fields "Parameter" fields) := rfl

theorem settled_fields {datum : Datum} (direct : datum.isDirect) : fields.SettledOn datum :=
  ⟨Datum.settled_text direct, Datum.settled_choice ParameterLocation.name direct,
    Datum.settled_flag direct, trivial⟩

structure Stands (parameter : Parameter) (names locations flags : List Datum) : Prop where
  name : (Field.required "name" Reader.text).Holds names parameter.name
  location : (Field.required "in" ParameterLocation.codec.read).Holds locations parameter.location
  required : (Field.withDefault "required" Reader.flag false).Holds flags parameter.required

theorem holds_iff {entries : List (FieldKey × Datum)}
    {values : String × ParameterLocation × Bool × Unit} :
    fields.Holds entries values ↔ Stands (ofValues values) (Fields.standing 0 "name" entries)
      (Fields.standing 1 "in" entries) (Fields.standing 2 "required" entries) := by
  obtain ⟨name, location, required, ⟨⟩⟩ := values
  have second : Fields.standing 0 "in" ((Field.required "name" Reader.text).others entries)
      = Fields.standing 1 "in" entries :=
    Fields.standing_others 0 (Field.required "name" Reader.text) (by decide) entries
  have third : Fields.standing 0 "required"
      ((Field.required "in" ParameterLocation.codec.read).others
        ((Field.required "name" Reader.text).others entries))
      = Fields.standing 2 "required" entries := by
    rw [Fields.standing_others 0 (Field.required "in" ParameterLocation.codec.read) (by decide)]
    exact Fields.standing_others 1 (Field.required "name" Reader.text) (by decide) entries
  unfold fields
  simp only [Fields.Holds, Fields.own_eq_standing, and_true]
  constructor
  · rintro ⟨names, locations, flags⟩
    exact ⟨names, second ▸ locations, third ▸ flags⟩
  · rintro ⟨names, locations, flags⟩
    exact ⟨names, second.symm ▸ locations, third.symm ▸ flags⟩

theorem stands_perm {parameter : Parameter} {names locations flags : List Datum}
    {names' locations' flags' : List Datum} (first : names.Perm names')
    (second : locations.Perm locations') (third : flags.Perm flags') :
    Stands parameter names locations flags ↔ Stands parameter names' locations' flags' := by
  constructor
  · rintro ⟨name, location, required⟩
    exact ⟨(Field.holds_perm first).1 name, (Field.holds_perm second).1 location,
      (Field.holds_perm third).1 required⟩
  · rintro ⟨name, location, required⟩
    exact ⟨(Field.holds_perm first).2 name, (Field.holds_perm second).2 location,
      (Field.holds_perm third).2 required⟩

end Parameter

theorem exists_forall₂_iff {α β : Type} {relation : α → β → Prop} {items : List α} :
    (∃ others, List.Forall₂ relation items others) ↔
      ∀ item ∈ items, ∃ other, relation item other := by
  induction items with
  | nil => simp
  | cons item items ih =>
    rw [List.forall_mem_cons, ← ih]
    constructor
    · rintro ⟨others, related⟩
      obtain ⟨other, others, head, rest, -⟩ := List.forall₂_cons_left_iff.1 related
      exact ⟨⟨other, head⟩, others, rest⟩
    · rintro ⟨⟨other, head⟩, others, rest⟩
      exact ⟨_, .cons head rest⟩

section Places

variable {anchors : Yaml.Anchors} {above below : Nat} {tag : Option String}
  {entries : List (Node × Node)} {contents : List (Content × Content)} {parameter : Parameter}

def NodesStand (place : Place) (entries : List (Node × Node)) (parameter : Parameter) : Prop :=
  parameter.Stands ((Node.valuesUnder "name" entries).map (.node place))
    ((Node.valuesUnder "in" entries).map (.node place))
    ((Node.valuesUnder "required" entries).map (.node place))

def selected (index : Nat) (name : String) (contents : List (Content × Content)) : List Content :=
  Content.under (.name name) contents ++ Content.under (.number index) contents

def ContentsStand (contents : List (Content × Content)) (parameter : Parameter) : Prop :=
  parameter.Stands ((selected 0 "name" contents).map .content)
    ((selected 1 "in" contents).map .content) ((selected 2 "required" contents).map .content)

theorem declared_iff (closed : Node.closedEntries entries) :
    Always (Parameter.reader (.node ⟨anchors, above, false⟩ (.mapping tag entries))) parameter ↔
      ∃ depth, above = depth + 1 ∧ (∀ entry ∈ entries, ∃ text, entry.1.scalarText? = some text) ∧
        NodesStand ⟨anchors, depth, false⟩ entries parameter := by
  rw [Parameter.reader_eq, Reader.always_map_iff
    (Reader.settled_fields_mapping (fun _ => Parameter.settled_fields) closed)]
  simp only [Reader.always_fields_mapping_iff closed]
  have read_iff {depth : Nat} {keyed : List (FieldKey × Datum)}
      {values : String × ParameterLocation × Bool × Unit}
      (related : List.Forall₂ (IsKeyed ⟨anchors, depth, false⟩) entries keyed) :
      Always (Parameter.fields.readNamed keyed) values ↔
        NodesStand ⟨anchors, depth, false⟩ entries (Parameter.ofValues values) := by
    have direct := Reader.direct_of_keyed closed related
    rw [Fields.always_readNamed_iff fun field member =>
      Parameter.settled_fields (direct field member), Parameter.holds_iff]
    simp only [Datum.standing_keyed _ _ related, NodesStand]
  constructor
  · rintro ⟨values, ⟨depth, keyed, deep, related, read⟩, rfl⟩
    have keys := exists_forall₂_iff.1 ⟨keyed, related⟩
    refine ⟨depth, deep, fun entry member => ?_, (read_iff related).1 read⟩
    obtain ⟨-, text, found, -⟩ := keys entry member
    exact ⟨text, found⟩
  · rintro ⟨depth, deep, texts, stands⟩
    have keys : ∀ entry ∈ entries, ∃ field, IsKeyed ⟨anchors, depth, false⟩ entry field := by
      intro entry member
      obtain ⟨text, found⟩ := texts entry member
      exact ⟨_, text, found, rfl⟩
    obtain ⟨keyed, related⟩ := exists_forall₂_iff.2 keys
    obtain ⟨name, location, required⟩ := parameter
    exact ⟨(name, location, required, ()), ⟨depth, keyed, deep, related,
      (read_iff related).2 stands⟩, rfl⟩

theorem used_iff :
    Always (Parameter.reader (.content (.map contents))) parameter ↔
      (∀ entry ∈ contents, ∃ key, entry.1.fieldKey? = some key) ∧
        ContentsStand contents parameter := by
  rw [Parameter.reader_eq, Reader.always_map_iff
    (Reader.settled_fields_contents (fun _ => Parameter.settled_fields))]
  simp only [Reader.always_fields_contents_iff]
  have read_iff {keyed : List (FieldKey × Datum)}
      {values : String × ParameterLocation × Bool × Unit}
      (related : List.Forall₂ IsContentKeyed contents keyed) :
      Always (Parameter.fields.readNamed keyed) values ↔
        ContentsStand contents (Parameter.ofValues values) := by
    have direct := Reader.direct_of_contentKeyed related
    rw [Fields.always_readNamed_iff fun field member =>
      Parameter.settled_fields (direct field member), Parameter.holds_iff]
    have alike := fun index name => Datum.standing_contentKeyed index name related
    exact Parameter.stands_perm (alike 0 "name") (alike 1 "in") (alike 2 "required")
  constructor
  · rintro ⟨values, ⟨keyed, related, read⟩, rfl⟩
    have keys := exists_forall₂_iff.1 ⟨keyed, related⟩
    refine ⟨fun entry member => ?_, (read_iff related).1 read⟩
    obtain ⟨field, found, -⟩ := keys entry member
    exact ⟨field.1, found⟩
  · rintro ⟨found, stands⟩
    have keys : ∀ entry ∈ contents, ∃ field, IsContentKeyed entry field := by
      intro entry member
      obtain ⟨key, here⟩ := found entry member
      exact ⟨(key, .content entry.2), here, rfl⟩
    obtain ⟨keyed, related⟩ := exists_forall₂_iff.2 keys
    obtain ⟨name, location, required⟩ := parameter
    exact ⟨(name, location, required, ()), ⟨keyed, related, (read_iff related).2 stands⟩, rfl⟩

theorem settled_used : Settled (Parameter.reader (.content (.map contents))) := by
  rw [Parameter.reader_eq]
  exact (Reader.settled_fields_contents (fun _ => Parameter.settled_fields)).bind
    (fun _ => Read.settled_pure _)

def targetField : Fields Field (String × Unit) :=
  .cons (.required "$ref" Reader.text) .nil

theorem referenceReader_eq : ParameterUse.referenceReader =
    Reader.map (fun found => .reference found.1.1)
      (Reader.namedFields "a reference" false targetField) := rfl

theorem settledOn_target (datum : Datum) (direct : datum.isDirect) : targetField.SettledOn datum :=
  ⟨Datum.settled_text direct, trivial⟩

theorem settled_target : Settled
    (Reader.namedFields "a reference" false targetField (.content (.map contents))) :=
  Reader.settled_namedFields_contents settledOn_target

theorem settled_reference :
    Settled (ParameterUse.referenceReader (.content (.map contents))) := by
  rw [referenceReader_eq]
  exact settled_target.bind (fun _ => Read.settled_pure _)

theorem target_of_reference {use : ParameterUse}
    (always : Always (ParameterUse.referenceReader (.content (.map contents))) use) :
    (∃ target, use = .reference target) ∧ selected 0 "$ref" contents ≠ [] := by
  rw [referenceReader_eq, Reader.always_map_iff settled_target] at always
  obtain ⟨⟨values, others⟩, read, rfl⟩ := always
  refine ⟨⟨_, rfl⟩, fun none_ => ?_⟩
  obtain ⟨keyed, related, holds, -⟩ := Reader.holds_of_namedFields settledOn_target read
  have stand := Datum.standing_contentKeyed 0 "$ref" related
  unfold selected at none_
  rw [none_] at stand
  rw [Fields.own_eq_standing] at holds
  replace holds := (Field.holds_perm stand).1 holds
  rcases holds with ⟨-, stands⟩ | ⟨datum, only, -⟩
  · cases stands
  · cases only

theorem use_iff {use : ParameterUse} (closed : Node.closedEntries entries) :
    Always (ParameterUse.reader (.node ⟨anchors, below, false⟩ (.mapping tag entries))) use ↔
      ∃ contents, Always (Datum.nodeContent anchors below (.mapping tag entries)) (.map contents) ∧
        (Always (ParameterUse.referenceReader (.content (.map contents))) use ∨
          (Never (ParameterUse.referenceReader (.content (.map contents))) ∧
            ∃ parameter, use = .inline parameter ∧
              Always (Parameter.reader (.content (.map contents))) parameter)) := by
  have settled : Settled (Datum.nodeContent anchors below (.mapping tag entries)) :=
    Datum.settled_nodeContent anchors below closed
  have inline_iff {contents : List (Content × Content)} :
      Always (Parameter.reader.map ParameterUse.inline (.content (.map contents))) use ↔
        ∃ parameter, use = .inline parameter ∧
          Always (Parameter.reader (.content (.map contents))) parameter := by
    rw [Reader.always_map_iff settled_used]
    simp only [and_comm, eq_comm]
  unfold ParameterUse.reader
  rw [Datum.typed, Read.always_bind_iff settled]
  constructor
  · rintro ⟨content, typed, read⟩
    obtain ⟨-, less, contents, -, rfl, -⟩ :=
      (Datum.always_nodeContent_mapping_iff closed).1 typed
    rw [Read.always_orElse_iff settled_reference, inline_iff] at read
    exact ⟨contents, typed, read⟩
  · rintro ⟨contents, typed, read⟩
    refine ⟨.map contents, typed, ?_⟩
    rw [Read.always_orElse_iff settled_reference, inline_iff]
    exact read

/-- Keys are texts or numbers that select none of the first two fields, and what the fields take
is of their types. A number that selects the third may say only what holds without it. -/
structure WellTyped (entries : List (Node × Node)) (contents : List (Content × Content)) :
    Prop where
  keys : ∀ entry ∈ contents, (∃ text, entry.1 = .string text) ∨ ∃ n : Nat, 2 ≤ n ∧ entry.1 = .int n
  names : ∀ value ∈ Content.under (.name "name") contents, ∃ text, value = .string text
  locations : ∀ value ∈ Content.under (.name "in") contents, ∃ text, value = .string text
  flags : ∀ value ∈ Content.under (.name "required") contents, ∃ flag, value = .bool flag
  bare : ∀ node ∈ Node.valuesUnder "required" entries, node.isBare
  numbered : Content.under (.number 2) contents = [] ∨
    (Content.under (.number 2) contents = [.bool false] ∧
      Content.under (.name "required") contents = [])

theorem WellTyped.fieldKeys (typed : WellTyped entries contents) :
    ∀ entry ∈ contents, ∃ key, entry.1.fieldKey? = some key := by
  intro entry member
  rcases typed.keys entry member with ⟨text, same⟩ | ⟨n, -, same⟩
  · exact ⟨_, Content.fieldKey?_name_iff.2 same⟩
  · exact ⟨_, Content.fieldKey?_number_iff.2 same⟩

theorem under_eq_nil {key : FieldKey}
    (none_ : ∀ entry ∈ contents, entry.1.fieldKey? ≠ some key) :
    Content.under key contents = [] := by
  unfold Content.under
  rw [List.filterMap_eq_nil_iff]
  intro entry member
  rw [if_neg (none_ entry member)]

theorem WellTyped.under_number {index : Nat} (typed : WellTyped entries contents)
    (small : index < 2) : Content.under (.number index) contents = [] := by
  apply under_eq_nil
  intro entry member found
  rcases typed.keys entry member with ⟨text, same⟩ | ⟨n, large, same⟩
  · rw [same] at found
    cases found
  · rw [same] at found
    simp [Content.fieldKey?] at found
    omega

section Rows

variable {depth : Nat} {place : Place}
  (closed : Node.closedEntries entries)
  (rows : List.Forall₂ (IsEntryTyped anchors depth) entries contents)
include closed rows

theorem name_stands_iff (typed : WellTyped entries contents) {name : String} :
    (Field.required "name" Reader.text).Holds
        ((Node.valuesUnder "name" entries).map (.node place)) name ↔
      (Field.required "name" Reader.text).Holds
        ((selected 0 "name" contents).map .content) name := by
  rw [selected, typed.under_number (by omega), List.append_nil]
  apply Datum.holds_typed_iff (Datum.valuesUnder_typed Yaml.isWord_name closed rows)
  intro node _ content member typed_
  exact Datum.text_typed_iff typed_ (typed.names content member)

theorem location_stands_iff (typed : WellTyped entries contents) {location : ParameterLocation} :
    (Field.required "in" ParameterLocation.codec.read).Holds
        ((Node.valuesUnder "in" entries).map (.node place)) location ↔
      (Field.required "in" ParameterLocation.codec.read).Holds
        ((selected 1 "in" contents).map .content) location := by
  rw [selected, typed.under_number (by omega), List.append_nil]
  apply Datum.holds_typed_iff (Datum.valuesUnder_typed Yaml.isWord_in closed rows)
  intro node _ content member typed_
  exact Datum.choice_typed_iff ParameterLocation.name typed_
    (typed.locations content member)

theorem required_stands_iff (unused : place.tagUsed = false) (typed : WellTyped entries contents)
    {required : Bool} :
    (Field.withDefault "required" Reader.flag false).Holds
        ((Node.valuesUnder "required" entries).map (.node place)) required ↔
      (Field.withDefault "required" Reader.flag false).Holds
        ((selected 2 "required" contents).map .content) required := by
  have flags := Datum.valuesUnder_typed Yaml.isWord_required closed rows
  rcases typed.numbered with none_ | ⟨one, unnamed⟩
  · rw [selected, none_, List.append_nil]
    apply Datum.holds_typed_iff flags
    intro node inNodes content member typed_
    exact Datum.flag_typed_iff typed_ (typed.flags content member) (typed.bare node inNodes) unused
  · -- The number says that the parameter is not required, as its absence would.
    rw [unnamed] at flags
    rw [List.forall₂_nil_right_iff.1 flags, selected, one, unnamed]
    constructor
    · rintro (⟨-, stands⟩ | ⟨datum, only, -⟩)
      · cases stands
        exact .inr ⟨_, rfl, Datum.always_content_flag_iff.2 rfl⟩
      · cases only
    · intro holds
      cases Datum.always_content_flag_iff.1 (Field.always_of_holds holds)
      exact .inl ⟨rfl, rfl⟩

theorem stand_iff (unused : place.tagUsed = false) (typed : WellTyped entries contents) :
    NodesStand place entries parameter ↔ ContentsStand contents parameter := by
  constructor
  · rintro ⟨name, location, required⟩
    exact ⟨(name_stands_iff closed rows typed).1 name,
      (location_stands_iff closed rows typed).1 location,
      (required_stands_iff closed rows unused typed).1 required⟩
  · rintro ⟨name, location, required⟩
    exact ⟨(name_stands_iff closed rows typed).2 name,
      (location_stands_iff closed rows typed).2 location,
      (required_stands_iff closed rows unused typed).2 required⟩

/-- Where a field is named in a mapping and must be there, no number selects it. -/
theorem only_named {α : Type} {name : String} {index : Nat} {read : Reader α} {value : α}
    (word : Yaml.IsWord name)
    (nodes : (Field.required name read).Holds
      ((Node.valuesUnder name entries).map (.node place)) value)
    (typed : (Field.required name read).Holds ((selected index name contents).map .content) value) :
    ∃ node content, IsTyped anchors depth node content ∧
      Node.valuesUnder name entries = [node] ∧ Content.under (.name name) contents = [content] ∧
        Content.under (.number index) contents = [] := by
  have values := Datum.valuesUnder_typed word closed rows
  obtain ⟨datum, one⟩ := Field.exists_of_required nodes
  obtain ⟨node, only, -⟩ := List.map_eq_singleton_iff.1 one
  rw [only] at values
  obtain ⟨content, rest, here, none_, same⟩ := List.forall₂_cons_left_iff.1 values
  rw [List.forall₂_nil_left_iff.1 none_] at same
  have few := Field.length_le_of_holds typed
  rw [selected, same] at few
  simp only [List.singleton_append, List.map_cons, List.length_cons, List.length_map] at few
  exact ⟨node, content, here, only, same, List.length_eq_zero_iff.1 (by omega)⟩

/-- What the last field takes where the mapping and its typed contents give it one value. -/
theorem flags_of_stand (unused : place.tagUsed = false) {required : Bool}
    (nodes : (Field.withDefault "required" Reader.flag false).Holds
      ((Node.valuesUnder "required" entries).map (.node place)) required)
    (typed : (Field.withDefault "required" Reader.flag false).Holds
      ((selected 2 "required" contents).map .content) required) :
    (∀ value ∈ Content.under (.name "required") contents, ∃ flag, value = .bool flag) ∧
      (∀ node ∈ Node.valuesUnder "required" entries, node.isBare) ∧
        (Content.under (.number 2) contents = [] ∨
          (Content.under (.number 2) contents = [.bool false] ∧
            Content.under (.name "required") contents = [])) := by
  have values := Datum.valuesUnder_typed Yaml.isWord_required closed rows
  have few := Field.length_le_of_holds typed
  unfold selected at few typed
  cases named : Content.under (.name "required") contents with
  | nil =>
    rw [named] at values few typed
    rw [List.forall₂_nil_right_iff.1 values] at nodes ⊢
    refine ⟨by simp, by simp, ?_⟩
    cases numbered : Content.under (.number 2) contents with
    | nil => exact .inl rfl
    | cons value rest =>
      rw [numbered] at few typed
      simp only [List.nil_append, List.map_cons, List.length_cons, List.length_map] at few
      rw [List.length_eq_zero_iff.1 (show rest.length = 0 by omega)] at typed ⊢
      rcases nodes with ⟨-, stands⟩ | ⟨datum, only, -⟩
      · cases stands
        rw [Datum.always_content_flag_iff.1 (Field.always_of_holds typed)]
        exact .inr ⟨rfl, rfl⟩
      · cases only
  | cons value rest =>
    rw [named] at values few typed
    obtain ⟨node, others, here, later, same⟩ := List.forall₂_cons_right_iff.1 values
    simp only [List.cons_append, List.map_cons, List.length_cons, List.length_map,
      List.length_append] at few
    have none_ : rest = [] := List.length_eq_zero_iff.1 (by omega)
    have unnumbered : Content.under (.number 2) contents = [] :=
      List.length_eq_zero_iff.1 (by omega)
    rw [none_] at later typed ⊢
    rw [unnumbered] at typed ⊢
    rw [List.forall₂_nil_right_iff.1 later] at same
    rw [same] at nodes ⊢
    have flag := Datum.always_content_flag_iff.1 (Field.always_of_holds typed)
    have bare := ((Datum.always_flag_iff here.1 unused).1 (Field.always_of_holds nodes)).1
    exact ⟨by simp [flag], by simpa using bare, .inl rfl⟩

theorem wellTyped_of_stand (unused : place.tagUsed = false)
    (keys : ∀ entry ∈ contents, ∃ key, entry.1.fieldKey? = some key)
    (nodes : NodesStand place entries parameter) (typed : ContentsStand contents parameter) :
    WellTyped entries contents := by
  obtain ⟨_, name, -, -, names, noZero⟩ :=
    only_named closed rows Yaml.isWord_name nodes.name typed.name
  obtain ⟨node, location, here, placeNodes, locations, noOne⟩ :=
    only_named closed rows Yaml.isWord_in nodes.location typed.location
  obtain ⟨flags, bare, numbered⟩ := flags_of_stand closed rows unused nodes.required typed.required
  refine ⟨fun entry member => ?_, ?_, ?_, flags, bare, numbered⟩
  · obtain ⟨key, found⟩ := keys entry member
    cases key with
    | name text => exact .inl ⟨text, Content.fieldKey?_name_iff.1 found⟩
    | number n =>
      have selects := Content.mem_under member found
      refine .inr ⟨n, ?_, Content.fieldKey?_number_iff.1 found⟩
      by_contra small
      have cases_ : n = 0 ∨ n = 1 := by omega
      rcases cases_ with rfl | rfl
      · rw [noZero] at selects
        cases selects
      · rw [noOne] at selects
        cases selects
  · have text := typed.name
    rw [selected, names, noZero] at text
    rw [names, Datum.always_content_text_iff.1 (Field.always_of_holds text)]
    simp
  · have used := typed.location
    have declared := nodes.location
    rw [selected, locations, noOne] at used
    rw [placeNodes] at declared
    rw [locations]
    simpa using Datum.string_of_choice ParameterLocation.name here
      (Field.always_of_holds declared) (Field.always_of_holds used)

end Rows

section Agreement

variable (closed : Node.closedEntries entries)
include closed

/-- The two readings of a mapping agree: either place reads the parameter that the other does. -/
def ReadAlike (anchors : Yaml.Anchors) (above below : Nat) (node : Node) : Prop :=
  ∀ use, Always (ParameterUse.reader (.node ⟨anchors, below, false⟩ node)) use ↔
    ∃ parameter, use = .inline parameter ∧
      Always (Parameter.reader (.node ⟨anchors, above, false⟩ node)) parameter

/-- Where both places read the same parameter, the mapping is well typed. -/
theorem wellTyped_of_both
    (declared : Always (Parameter.reader (.node ⟨anchors, above, false⟩ (.mapping tag entries)))
      parameter)
    (used : Always (ParameterUse.reader (.node ⟨anchors, below, false⟩ (.mapping tag entries)))
      (.inline parameter)) :
    ∃ contents, Always (Datum.nodeContent anchors below (.mapping tag entries)) (.map contents) ∧
      WellTyped entries contents := by
  obtain ⟨depth, -, -, nodes⟩ := (declared_iff closed).1 declared
  obtain ⟨contents, typed, read⟩ := (use_iff closed).1 used
  obtain ⟨-, less, _, -, same, rows⟩ := (Datum.always_nodeContent_mapping_iff closed).1 typed
  cases same
  rcases read with reference | ⟨-, other, same, inline⟩
  · obtain ⟨⟨target, same⟩, -⟩ := target_of_reference reference
    cases same
  · cases same
    obtain ⟨keys, contentsStand⟩ := used_iff.1 inline
    exact ⟨contents, typed, wellTyped_of_stand closed rows rfl keys nodes contentsStand⟩

section Typed

variable {depth : Nat} (rows : List.Forall₂ (IsEntryTyped anchors depth) entries contents)
  (wellTyped : WellTyped entries contents)
include rows wellTyped

theorem keys_are_texts : ∀ entry ∈ entries, ∃ text, entry.1.scalarText? = some text := by
  intro entry member
  obtain ⟨content, inContents, row⟩ := exists_of_mem_left rows member
  have closed := (Node.closed_of_mem_entries closed member).1
  apply Datum.text_of_scalar closed row.1
  rcases wellTyped.keys content inContents with ⟨text, same⟩ | ⟨n, -, same⟩
  · rw [same]
    exact ⟨nofun, nofun⟩
  · rw [same]
    exact ⟨nofun, nofun⟩

theorem never_reference (unreferenced : ∀ entry ∈ entries, entry.1.scalarText? ≠ some "$ref") :
    Never (ParameterUse.referenceReader (.content (.map contents))) := by
  have unnamed : Content.under (.name "$ref") contents = [] := by
    apply under_eq_nil
    intro content member found
    obtain ⟨entry, inEntries, row⟩ := exists_of_mem_right rows member
    have text := Content.fieldKey?_name_iff.1 found
    obtain ⟨tag, style, same, -⟩ := Datum.scalar_of_string
      (Node.closed_of_mem_entries closed inEntries).1 (text ▸ row.1)
    exact unreferenced entry inEntries (by rw [same, Node.scalarText?])
  rcases settled_reference with ⟨use, always⟩ | never
  · refine absurd ?_ (target_of_reference always).2
    rw [selected, unnamed, wellTyped.under_number (by omega), List.append_nil]
  · exact never

end Typed

/-- A mapping without a reference is read alike in both places exactly if it is well typed where
one of them reads it at all. -/
theorem parameter_read_alike_iff
    (unreferenced : ∀ entry ∈ entries, entry.1.scalarText? ≠ some "$ref") :
    ReadAlike anchors (above + 1) below (.mapping tag entries) ↔
      ((∃ parameter, Always (Parameter.reader
          (.node ⟨anchors, above + 1, false⟩ (.mapping tag entries))) parameter) ∨
        (∃ use, Always (ParameterUse.reader
          (.node ⟨anchors, below, false⟩ (.mapping tag entries))) use) →
      ∃ contents, Always (Datum.nodeContent anchors below (.mapping tag entries)) (.map contents) ∧
        WellTyped entries contents) := by
  constructor
  · rintro alike (⟨parameter, declared⟩ | ⟨use, used⟩)
    · exact wellTyped_of_both closed declared ((alike _).2 ⟨parameter, rfl, declared⟩)
    · obtain ⟨parameter, rfl, declared⟩ := (alike use).1 used
      exact wellTyped_of_both closed declared used
  · intro condition use
    constructor
    · intro used
      obtain ⟨contents, typed, wellTyped⟩ := condition (.inr ⟨use, used⟩)
      obtain ⟨-, less, _, -, same, rows⟩ := (Datum.always_nodeContent_mapping_iff closed).1 typed
      cases same
      obtain ⟨others, typed_, read⟩ := (use_iff closed).1 used
      cases typed.unique typed_
      rcases read with reference | ⟨-, parameter, rfl, inline⟩
      · exact absurd (never_reference closed rows wellTyped unreferenced) reference.not_never
      · have unused : (Place.mk anchors above false).tagUsed = false := rfl
        have stands := (stand_iff closed rows unused wellTyped).2 (used_iff.1 inline).2
        have texts := keys_are_texts closed rows wellTyped
        exact ⟨parameter, rfl, (declared_iff closed).2 ⟨above, rfl, texts, stands⟩⟩
    · rintro ⟨parameter, rfl, declared⟩
      obtain ⟨contents, typed, wellTyped⟩ := condition (.inl ⟨parameter, declared⟩)
      obtain ⟨-, less, _, -, same, rows⟩ := (Datum.always_nodeContent_mapping_iff closed).1 typed
      cases same
      obtain ⟨depth, -, -, nodes⟩ := (declared_iff closed).1 declared
      have never := never_reference closed rows wellTyped unreferenced
      have unused : (Place.mk anchors depth false).tagUsed = false := rfl
      have stands := (stand_iff closed rows unused wellTyped).1 nodes
      exact (use_iff closed).2 ⟨contents, typed, .inr ⟨never, parameter, rfl,
        used_iff.2 ⟨wellTyped.fieldKeys, stands⟩⟩⟩

end Agreement

end Places

section Plain

def plainMapping (entries : List (String × String)) : List (Node × Node) :=
  entries.map (fun entry => (.scalar none .plain entry.1, .scalar none .plain entry.2))

theorem plainMapping_typed {anchors : Yaml.Anchors} {depth : Nat} {entries : List (String × String)}
    {contents : List (Content × Content)} (closed : Node.closedEntries (plainMapping entries))
    (typed : List.Forall₂ (fun entry content =>
      Yaml.scalarContent none .plain entry.1 = .ok content.1 ∧
        Yaml.scalarContent none .plain entry.2 = .ok content.2) entries contents) :
    Always (Datum.nodeContent anchors (depth + 1) (.mapping none (plainMapping entries)))
      (.map contents) := by
  apply (Datum.always_nodeContent_mapping_iff closed).2
  refine ⟨rfl, depth, contents, rfl, rfl, List.forall₂_map_left_iff.2 (typed.imp ?_)⟩
  intro entry content ⟨key, value⟩
  exact ⟨Datum.always_nodeContent_scalar_iff.2 ⟨rfl, key⟩,
    Datum.always_nodeContent_scalar_iff.2 ⟨rfl, value⟩⟩

def page : List (Node × Node) :=
  plainMapping [("name", "page"), ("in", "query"), ("required", "true")]

theorem page_read_alike :
    Node.closedEntries page ∧ (∀ entry ∈ page, entry.1.scalarText? ≠ some "$ref") ∧
      ReadAlike {} 125 124 (.mapping none page) := by
  refine ⟨rfl, by decide, (parameter_read_alike_iff rfl (by decide)).2 fun _ => ?_⟩
  refine ⟨[(.string "name", .string "page"), (.string "in", .string "query"),
    (.string "required", .bool true)], plainMapping_typed rfl ?_, ?_⟩
  · exact .cons ⟨rfl, rfl⟩ (.cons ⟨rfl, rfl⟩ (.cons ⟨rfl, rfl⟩ .nil))
  · refine ⟨by simp, ?_, ?_, ?_, by decide, .inl rfl⟩
    all_goals simp [Content.under, Content.fieldKey?]

def numbered : List (Node × Node) :=
  plainMapping [("name", "5"), ("in", "query")]

/-- A declared parameter may be named by a number, but not one that is given where it is used. -/
theorem numeric_name_not_alike : ¬ ReadAlike {} 125 124 (.mapping none numbered) := by
  intro alike
  have declared : Always (Parameter.reader (.node ⟨{}, 125, false⟩ (.mapping none numbered)))
      ⟨"5", .query, false⟩ := fun left => rfl
  have typed : Always (Datum.nodeContent {} 124 (.mapping none numbered))
      (.map [(.string "name", .int 5), (.string "in", .string "query")]) :=
    plainMapping_typed rfl (.cons ⟨rfl, rfl⟩ (.cons ⟨rfl, rfl⟩ .nil))
  obtain ⟨contents, same, read⟩ := (use_iff rfl).1 ((alike _).2 ⟨_, rfl, declared⟩)
  cases typed.unique same
  rcases read with reference | ⟨-, parameter, -, inline⟩
  · obtain ⟨⟨target, same⟩, -⟩ := target_of_reference reference
    cases same
  · have name := Datum.always_content_text_iff.1 (Field.always_of_holds (used_iff.1 inline).2.name)
    cases name

end Plain

end OpenApi

end ApiManifest
