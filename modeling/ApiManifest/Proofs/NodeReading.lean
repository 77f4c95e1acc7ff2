import ApiManifest.Proofs.RecordReading

/-!
How the nodes of a YAML document without aliases are read, and how typed content is: each reading
is settled. A scalar with typed content that is text has its own text for content.
-/

namespace ApiManifest

open Read (Always Never Settled)

namespace Yaml.Node

mutual

/-- Whether no alias stands anywhere in the node. -/
def isClosed : Node → Bool
  | .scalar .. => true
  | .reference _ => false
  | .sequence _ items => closedItems items
  | .mapping _ entries => closedEntries entries

def closedItems : List Node → Bool
  | [] => true
  | item :: rest => isClosed item && closedItems rest

def closedEntries : List (Node × Node) → Bool
  | [] => true
  | (key, value) :: rest => isClosed key && isClosed value && closedEntries rest

end

def scalarText? : Node → Option String
  | .scalar _ _ text => some text
  | _ => none

theorem closed_of_mem_items {items : List Node} (closed : closedItems items) {item : Node}
    (member : item ∈ items) : item.isClosed := by
  induction items with
  | nil => cases member
  | cons first rest ih =>
    rw [closedItems, Bool.and_eq_true] at closed
    rcases List.mem_cons.1 member with rfl | later
    · exact closed.1
    · exact ih closed.2 later

theorem closed_of_mem_entries {entries : List (Node × Node)} (closed : closedEntries entries)
    {entry : Node × Node} (member : entry ∈ entries) :
    entry.1.isClosed ∧ entry.2.isClosed := by
  induction entries with
  | nil => cases member
  | cons first rest ih =>
    obtain ⟨key, value⟩ := first
    rw [closedEntries, Bool.and_eq_true, Bool.and_eq_true] at closed
    rcases List.mem_cons.1 member with rfl | later
    · exact closed.1
    · exact ih closed.2 later

end Yaml.Node

open Yaml (Node Style)

namespace Datum

def isDirect : Datum → Bool
  | .node _ (.reference _) => false
  | _ => true

variable {datum : Datum} {place : Place}

theorem force_direct (direct : datum.isDirect) : datum.force = pure datum := by
  unfold force
  split
  · cases direct
  · rfl

theorem direct_of_closed {node : Node} (closed : node.isClosed) :
    (Datum.node place node).isDirect := by
  cases node with
  | reference anchor => cases closed
  | _ => rfl

theorem settled_text (direct : datum.isDirect) : Settled datum.text := by
  unfold text
  rw [force_direct direct, pure_bind]
  split
  · exact Read.settled_pure _
  · exact Read.settled_pure _
  · exact Read.settled_pure _
  · exact Read.settled_refuse _

theorem settled_flag (direct : datum.isDirect) : Settled datum.flag := by
  unfold flag
  rw [force_direct direct, pure_bind]
  split
  · exact Read.settled_pure _
  · exact Read.settled_pure _
  · split
    · split
      · exact Read.settled_pure _
      · exact Read.settled_refuse _
    · exact Read.settled_refuse _
  · exact Read.settled_refuse _

theorem settled_isNull (datum : Datum) : Settled datum.isNull := by
  unfold isNull
  split
  · exact Read.settled_pure _
  · exact Read.settled_pure _
  · unfold scalarIsNull
    split
    · exact Read.settled_pure _
    · split
      · split
        · exact Read.settled_pure _
        · split
          · split
            · exact Read.settled_pure _
            · exact Read.settled_refuse _
          · exact Read.settled_pure _
      · exact Read.settled_pure _
  · exact Read.settled_pure _

theorem settled_unit (direct : datum.isDirect) : Settled datum.unit := by
  unfold unit
  rw [force_direct direct, pure_bind]
  refine (settled_isNull datum).bind (fun null => ?_)
  split
  · exact Read.settled_pure _
  · exact Read.settled_refuse _

theorem settled_contentKey (key : Content) : Settled (contentKey key) := by
  unfold contentKey
  split
  · exact Read.settled_pure _
  · exact Read.settled_refuse _

theorem settled_inside (place : Place) : Settled (inside place) := by
  unfold inside
  split
  · exact Read.settled_refuse _
  · exact Read.settled_pure _

/-- A variant carries nothing that is an alias. -/
theorem settled_variantForm (direct : datum.isDirect) : Settled datum.variantForm := by
  unfold variantForm
  rw [force_direct direct, pure_bind]
  split
  all_goals first
    | exact Read.settled_pure _
    | exact Read.settled_refuse _
    | exact (settled_contentKey _).bind (fun _ => Read.settled_pure _)
    | (split
       · exact Read.settled_pure _
       · first
         | exact Read.settled_pure _
         | exact Read.settled_refuse _)

theorem direct_payload {form : VariantForm} {payload : Datum} (direct : datum.isDirect)
    (always : Always datum.variantForm form) (carried : form.payload = some payload) :
    payload.isDirect := by
  unfold variantForm at always
  rw [force_direct direct, pure_bind] at always
  split at always
  all_goals try split at always
  all_goals first
    | exact absurd always (Read.not_always_refuse _ _)
    | (cases Read.always_pure_iff.1 always
       cases carried
       done)
    | (cases Read.always_pure_iff.1 always
       cases carried
       rfl)
    | (obtain ⟨key, -, made⟩ := (Read.always_bind_iff (settled_contentKey _)).1 always
       cases Read.always_pure_iff.1 made
       cases carried
       rfl)

theorem settled_choice {α : Type} {values : List (String × α)} (name : α → String)
    (direct : datum.isDirect) : Settled ((Codec.choice values name).read datum) := by
  refine (settled_variantForm direct).bind_given (fun form always => ?_)
  split
  · exact Read.settled_refuse _
  · split
    · exact Read.settled_pure _
    next payload carried =>
      exact (settled_unit (direct_payload direct always carried)).bind
        (fun _ => Read.settled_pure _)

theorem settled_untagged (tag : Option String) : Settled (untagged tag) := by
  unfold untagged
  split
  · exact Read.settled_refuse _
  · exact Read.settled_pure _

theorem settled_liftExcept {α : Type} (result : Except DecodeError α) :
    Settled (liftExcept result) := by
  cases result with
  | error error => exact .inr (fun _ => ⟨error, rfl⟩)
  | ok value => exact .inl ⟨value, fun _ => rfl⟩

/-- The reading of a collection that may hold so many others inside each other. -/
def deeper {α : Type} (depth : Nat) (read : Nat → Read α) : Read α :=
  match depth with
  | 0 => Read.refuse .tooDeep
  | depth + 1 => read depth

theorem settled_deeper {α : Type} {depth : Nat} {read : Nat → Read α}
    (settled : ∀ less, depth = less + 1 → Settled (read less)) : Settled (deeper depth read) := by
  cases depth with
  | zero => exact Read.settled_refuse _
  | succ less => exact settled less rfl

theorem always_deeper_iff {α : Type} {depth : Nat} {read : Nat → Read α} {value : α} :
    Always (deeper depth read) value ↔ ∃ less, depth = less + 1 ∧ Always (read less) value := by
  cases depth with
  | zero =>
    constructor
    · intro always
      exact absurd (Read.never_refuse .tooDeep) always.not_never
    · rintro ⟨less, equal, -⟩
      cases equal
  | succ less =>
    constructor
    · exact fun always => ⟨less, rfl, always⟩
    · rintro ⟨other, equal, always⟩
      cases equal
      exact always

section NodeContent

variable (anchors : Yaml.Anchors) (depth : Nat) (tag : Option String)

def entryContent (entry : Node × Node) : Read (Content × Content) := do
  let key ← nodeContent anchors depth entry.1
  return (key, ← nodeContent anchors depth entry.2)

theorem nodeContent_scalar (style : Style) (text : String) :
    nodeContent anchors depth (.scalar tag style text) =
      untagged tag >>= fun _ => liftExcept (Yaml.scalarContent tag style text) := by
  cases depth <;> (rw [nodeContent, force_direct rfl, pure_bind])

theorem nodeContent_sequence (items : List Node) :
    nodeContent anchors depth (.sequence tag items) =
      untagged tag >>= fun _ => deeper depth (fun depth =>
        items.mapM (nodeContent anchors depth) >>= fun contents => pure (.list contents)) := by
  cases depth <;> (unfold nodeContent; rw [force_direct rfl, pure_bind]; rfl)

theorem nodeContent_mapping (entries : List (Node × Node)) :
    nodeContent anchors depth (.mapping tag entries) =
      untagged tag >>= fun _ => deeper depth (fun depth =>
        entries.mapM (entryContent anchors depth) >>= fun contents => pure (.map contents)) := by
  cases depth <;> (unfold nodeContent; rw [force_direct rfl, pure_bind]; rfl)

end NodeContent

theorem settled_nodeContent (anchors : Yaml.Anchors) (depth : Nat) {node : Node}
    (closed : node.isClosed) : Settled (nodeContent anchors depth node) := by
  induction depth using Nat.strongRecOn generalizing node with
  | ind depth ih =>
    cases node with
    | scalar tag style text =>
      rw [nodeContent_scalar]
      exact (settled_untagged tag).bind (fun _ => settled_liftExcept _)
    | reference anchor => cases closed
    | sequence tag items =>
      rw [nodeContent_sequence]
      refine (settled_untagged tag).bind (fun _ => settled_deeper (fun less equal => ?_))
      have each := fun item (member : item ∈ items) =>
        ih less (by omega) (Node.closed_of_mem_items closed member)
      exact (Read.settled_mapM each).bind (fun _ => Read.settled_pure _)
    | mapping tag entries =>
      rw [nodeContent_mapping]
      refine (settled_untagged tag).bind (fun _ => settled_deeper (fun less equal => ?_))
      have each : ∀ entry ∈ entries, Settled (entryContent anchors less entry) := by
        intro entry member
        have parts := Node.closed_of_mem_entries closed member
        exact (ih less (by omega) parts.1).bind
          (fun _ => (ih less (by omega) parts.2).bind (fun _ => Read.settled_pure _))
      exact (Read.settled_mapM each).bind (fun _ => Read.settled_pure _)

theorem always_untagged_iff {tag : Option String} {done : Unit} :
    Always (untagged tag) done ↔ Yaml.variantTag? tag = none := by
  unfold untagged
  split
  next name found => simp [Read.not_always_refuse, found]
  next none_ => simp [Read.always_pure_iff, none_]

theorem always_liftExcept_iff {α : Type} {result : Except DecodeError α} {value : α} :
    Always (liftExcept result) value ↔ result = .ok value := by
  constructor
  · intro always
    have here := always 0
    cases result with
    | error error => cases here
    | ok found => cases here; rfl
  · rintro rfl
    exact fun left => rfl

theorem always_inside_iff {place inner : Place} :
    Always (inside place) inner ↔
      ∃ depth, place.depth = depth + 1 ∧ inner = ⟨place.anchors, depth, false⟩ := by
  unfold inside
  split
  next none_ => simp [Read.not_always_refuse, none_]
  next depth found => simp [Read.always_pure_iff, found, eq_comm]

theorem always_contentKey_iff {content : Content} {key : FieldKey} :
    Always (contentKey content) key ↔ content.fieldKey? = some key := by
  unfold contentKey
  split
  next found equal => simp [Read.always_pure_iff, equal]
  next none_ => simp [refuse, Read.not_always_refuse, none_]

section Typed

variable {anchors : Yaml.Anchors} {depth : Nat} {tag : Option String} {content : Content}

theorem always_nodeContent_scalar_iff {style : Style} {text : String} :
    Always (nodeContent anchors depth (.scalar tag style text)) content ↔
      Yaml.variantTag? tag = none ∧ Yaml.scalarContent tag style text = .ok content := by
  rw [nodeContent_scalar, Read.always_bind_iff (settled_untagged tag)]
  simp [always_untagged_iff, always_liftExcept_iff]

theorem settled_entryContent (anchors : Yaml.Anchors) (depth : Nat) {entry : Node × Node}
    (closed : entry.1.isClosed ∧ entry.2.isClosed) :
    Settled (entryContent anchors depth entry) :=
  (settled_nodeContent anchors depth closed.1).bind (fun _ =>
    (settled_nodeContent anchors depth closed.2).bind (fun _ => Read.settled_pure _))

def IsEntryTyped (anchors : Yaml.Anchors) (depth : Nat) (entry : Node × Node)
    (contents : Content × Content) : Prop :=
  Always (nodeContent anchors depth entry.1) contents.1 ∧
    Always (nodeContent anchors depth entry.2) contents.2

theorem always_entryContent_iff {entry : Node × Node} {contents : Content × Content}
    (closed : entry.1.isClosed ∧ entry.2.isClosed) :
    Always (entryContent anchors depth entry) contents ↔
      IsEntryTyped anchors depth entry contents := by
  unfold entryContent
  rw [Read.always_bind_iff (settled_nodeContent anchors depth closed.1)]
  simp only [Read.always_bind_iff (settled_nodeContent anchors depth closed.2),
    Read.always_pure_iff]
  constructor
  · rintro ⟨key, first, value, second, rfl⟩
    exact ⟨first, second⟩
  · rintro ⟨first, second⟩
    exact ⟨_, first, _, second, rfl⟩

theorem always_nodeContent_mapping_iff {entries : List (Node × Node)}
    (closed : Node.closedEntries entries) :
    Always (nodeContent anchors depth (.mapping tag entries)) content ↔
      Yaml.variantTag? tag = none ∧ ∃ less contents, depth = less + 1 ∧
        content = .map contents ∧
          List.Forall₂ (IsEntryTyped anchors less) entries contents := by
  have parts := fun entry (member : entry ∈ entries) => Node.closed_of_mem_entries closed member
  have each := fun less entry (member : entry ∈ entries) =>
    settled_entryContent anchors less (parts entry member)
  have same (less : Nat) {contents : List (Content × Content)} :
      Always (entries.mapM (entryContent anchors less)) contents ↔
        List.Forall₂ (IsEntryTyped anchors less) entries contents :=
    Read.always_mapM_iff_relation (each less)
      (fun entry member _ => always_entryContent_iff (parts entry member))
  rw [nodeContent_mapping, Read.always_bind_iff (settled_untagged tag)]
  simp only [always_untagged_iff, always_deeper_iff, Read.always_pure_iff, same,
    Read.always_bind_iff (Read.settled_mapM (each _))]
  constructor
  · rintro ⟨-, untagged, less, equal, contents, read, rfl⟩
    exact ⟨untagged, less, contents, equal, rfl, read⟩
  · rintro ⟨untagged, less, contents, equal, rfl, read⟩
    exact ⟨(), untagged, less, equal, contents, read, rfl⟩

theorem list_of_sequence {items : List Node} (closed : Node.closedItems items)
    (always : Always (nodeContent anchors depth (.sequence tag items)) content) :
    Yaml.variantTag? tag = none ∧ ∃ contents, content = .list contents := by
  have each := fun less item (member : item ∈ items) =>
    settled_nodeContent anchors less (Node.closed_of_mem_items closed member)
  rw [nodeContent_sequence, Read.always_bind_iff (settled_untagged tag)] at always
  simp only [always_untagged_iff, always_deeper_iff, Read.always_pure_iff,
    Read.always_bind_iff (Read.settled_mapM (each _))] at always
  obtain ⟨-, untagged, less, -, contents, -, same⟩ := always
  exact ⟨untagged, contents, same.symm⟩

end Typed

theorem always_text_iff {place : Place} {node : Node} {text : String} (closed : node.isClosed) :
    Always (Datum.node place node).text text ↔ node.scalarText? = some text := by
  unfold Datum.text
  rw [force_direct (direct_of_closed closed), pure_bind]
  cases node with
  | reference anchor => cases closed
  | scalar tag style found => simp [Read.always_pure_iff, Node.scalarText?]
  | _ => simp [refuse, Read.not_always_refuse, Node.scalarText?]

theorem always_content_text_iff {content : Content} {text : String} :
    Always (Datum.content content).text text ↔ content = .string text := by
  unfold Datum.text
  rw [force_direct rfl, pure_bind]
  cases content <;> simp [refuse, Read.not_always_refuse, Read.always_pure_iff]

theorem always_content_flag_iff {content : Content} {value : Bool} :
    Always (Datum.content content).flag value ↔ content = .bool value := by
  unfold Datum.flag
  rw [force_direct rfl, pure_bind]
  cases content <;> simp [refuse, Read.not_always_refuse, Read.always_pure_iff]

def IsKeyed (place : Place) (entry : Node × Node) (field : FieldKey × Datum) : Prop :=
  ∃ text, entry.1.scalarText? = some text ∧ field = (.name text, .node place entry.2)

def IsContentKeyed (entry : Content × Content) (field : FieldKey × Datum) : Prop :=
  entry.1.fieldKey? = some field.1 ∧ field.2 = .content entry.2

def keyedEntry (place : Place) (entry : Node × Node) : Read (FieldKey × Datum) := do
  return (.name (← (Datum.node place entry.1).text), .node place entry.2)

def keyedContent (entry : Content × Content) : Read (FieldKey × Datum) := do
  return (← contentKey entry.1, .content entry.2)

section Forms

variable {place : Place} {tag : Option String} {entries : List (Node × Node)}
  {contents : List (Content × Content)} {expected : String} {form : RecordForm}

theorem settled_keyedEntry {entry : Node × Node} (closed : entry.1.isClosed) :
    Settled (keyedEntry place entry) :=
  (settled_text (direct_of_closed closed)).bind (fun _ => Read.settled_pure _)

theorem settled_keyedContent (entry : Content × Content) : Settled (keyedContent entry) :=
  (settled_contentKey entry.1).bind (fun _ => Read.settled_pure _)

theorem always_keyedEntry_iff {entry : Node × Node} {field : FieldKey × Datum}
    (closed : entry.1.isClosed) : Always (keyedEntry place entry) field ↔
      IsKeyed place entry field := by
  unfold keyedEntry
  rw [Read.always_bind_iff (settled_text (direct_of_closed closed))]
  simp only [always_text_iff closed, Read.always_pure_iff, IsKeyed, eq_comm]

theorem always_keyedContent_iff {entry : Content × Content} {field : FieldKey × Datum} :
    Always (keyedContent entry) field ↔ IsContentKeyed entry field := by
  unfold keyedContent
  rw [Read.always_bind_iff (settled_contentKey entry.1)]
  simp only [always_contentKey_iff, Read.always_pure_iff]
  constructor
  · rintro ⟨key, found, rfl⟩
    exact ⟨found, rfl⟩
  · rintro ⟨found, same⟩
    exact ⟨_, found, Prod.ext rfl same.symm⟩

theorem recordForm_mapping : recordForm expected (.node place (.mapping tag entries)) =
    inside place >>= fun inner => entries.mapM (keyedEntry inner) >>= fun fields =>
      pure (.named fields) := by
  unfold recordForm
  rw [force_direct rfl, pure_bind]
  rfl

theorem recordForm_contents : recordForm expected (.content (.map contents)) =
    contents.mapM keyedContent >>= fun fields => pure (.named fields) := by
  unfold recordForm
  rw [force_direct rfl, pure_bind]
  rfl

theorem settled_keyedEntries (closed : Node.closedEntries entries) :
    Settled (entries.mapM (keyedEntry place)) :=
  Read.settled_mapM (fun _ member =>
    settled_keyedEntry (Node.closed_of_mem_entries closed member).1)

theorem settled_recordForm_mapping (closed : Node.closedEntries entries) :
    Settled (recordForm expected (.node place (.mapping tag entries))) := by
  rw [recordForm_mapping]
  exact (settled_inside place).bind (fun _ =>
    (settled_keyedEntries closed).bind (fun _ => Read.settled_pure _))

theorem settled_recordForm_contents :
    Settled (recordForm expected (.content (.map contents))) := by
  rw [recordForm_contents]
  exact (Read.settled_mapM fun entry _ => settled_keyedContent entry).bind
    (fun _ => Read.settled_pure _)

theorem always_recordForm_mapping_iff (closed : Node.closedEntries entries) :
    Always (recordForm expected (.node place (.mapping tag entries))) form ↔
      ∃ depth fields, place.depth = depth + 1 ∧ form = .named fields ∧
        List.Forall₂ (IsKeyed ⟨place.anchors, depth, false⟩) entries fields := by
  have parts := fun entry (member : entry ∈ entries) => Node.closed_of_mem_entries closed member
  have same {inner : Place} {fields : List (FieldKey × Datum)} :
      Always (entries.mapM (keyedEntry inner)) fields ↔
        List.Forall₂ (IsKeyed inner) entries fields :=
    Read.always_mapM_iff_relation (fun entry member => settled_keyedEntry (parts entry member).1)
      (fun entry member _ => always_keyedEntry_iff (parts entry member).1)
  rw [recordForm_mapping, Read.always_bind_iff (settled_inside place)]
  simp only [always_inside_iff, Read.always_bind_iff (settled_keyedEntries closed), same,
    Read.always_pure_iff]
  constructor
  · rintro ⟨inner, ⟨depth, deep, rfl⟩, fields, keyed, rfl⟩
    exact ⟨depth, fields, deep, rfl, keyed⟩
  · rintro ⟨depth, fields, deep, rfl, keyed⟩
    exact ⟨_, ⟨depth, deep, rfl⟩, fields, keyed, rfl⟩

theorem always_recordForm_contents_iff :
    Always (recordForm expected (.content (.map contents))) form ↔
      ∃ fields, form = .named fields ∧ List.Forall₂ IsContentKeyed contents fields := by
  have keys := fun entry (_ : entry ∈ contents) => settled_keyedContent entry
  rw [recordForm_contents, Read.always_bind_iff (Read.settled_mapM keys)]
  simp only [Read.always_mapM_iff keys, always_keyedContent_iff, Read.always_pure_iff]
  constructor
  · rintro ⟨fields, keyed, rfl⟩
    exact ⟨fields, rfl, keyed⟩
  · rintro ⟨fields, rfl, keyed⟩
    exact ⟨fields, keyed, rfl⟩

end Forms

end Datum

namespace Reader

variable {σ : Type} {fields : Fields Field σ} {name : String} {values : σ}

/-- The fields of a datum that is a record with named entries, if it is one at all. -/
theorem always_fields_iff {datum : Datum} (direct : datum.isDirect)
    (settled : Settled (datum.recordForm ("struct " ++ name)))
    (named : ∀ form, Always (datum.recordForm ("struct " ++ name)) form →
      ∃ entries, form = .named entries) :
    Always (Reader.fields name fields datum) values ↔
      ∃ entries, Always (datum.recordForm ("struct " ++ name)) (.named entries) ∧
        Always (fields.readNamed entries) values := by
  unfold Reader.fields
  rw [Datum.force_direct direct, pure_bind, Read.always_bind_iff settled]
  constructor
  · rintro ⟨form, formed, read⟩
    obtain ⟨entries, rfl⟩ := named form formed
    exact ⟨entries, formed, read⟩
  · rintro ⟨entries, formed, read⟩
    exact ⟨.named entries, formed, read⟩

theorem direct_of_keyed {place : Place} {entries : List (Node × Node)}
    {keyed : List (FieldKey × Datum)} (closed : Node.closedEntries entries)
    (related : List.Forall₂ (Datum.IsKeyed place) entries keyed) :
    ∀ field ∈ keyed, field.2.isDirect := by
  induction related with
  | nil => simp
  | @cons entry field entries keyed head _ ih =>
    obtain ⟨text, -, rfl⟩ := head
    rw [Node.closedEntries, Bool.and_eq_true, Bool.and_eq_true] at closed
    intro other member
    rcases List.mem_cons.1 member with rfl | later
    · exact Datum.direct_of_closed closed.1.2
    · exact ih closed.2 other later

theorem direct_of_contentKeyed {contents : List (Content × Content)}
    {keyed : List (FieldKey × Datum)}
    (related : List.Forall₂ Datum.IsContentKeyed contents keyed) :
    ∀ field ∈ keyed, field.2.isDirect := by
  induction related with
  | nil => simp
  | cons head _ ih =>
    intro other member
    rcases List.mem_cons.1 member with rfl | later
    · rw [head.2]
      rfl
    · exact ih other later

section Records

variable (settledOn : ∀ datum : Datum, datum.isDirect → fields.SettledOn datum)
include settledOn

theorem settled_fields_mapping {place : Place} {tag : Option String}
    {entries : List (Node × Node)} (closed : Node.closedEntries entries) :
    Settled (Reader.fields name fields (.node place (.mapping tag entries))) := by
  unfold Reader.fields
  rw [Datum.force_direct rfl, pure_bind]
  refine (Datum.settled_recordForm_mapping closed).bind_given (fun form formed => ?_)
  obtain ⟨depth, keyed, -, rfl, related⟩ := (Datum.always_recordForm_mapping_iff closed).1 formed
  exact Fields.settled_readNamed fun field member =>
    settledOn field.2 (direct_of_keyed closed related field member)

theorem settled_fields_contents {contents : List (Content × Content)} :
    Settled (Reader.fields name fields (.content (.map contents))) := by
  unfold Reader.fields
  rw [Datum.force_direct rfl, pure_bind]
  refine Datum.settled_recordForm_contents.bind_given (fun form formed => ?_)
  obtain ⟨keyed, rfl, related⟩ := Datum.always_recordForm_contents_iff.1 formed
  exact Fields.settled_readNamed fun field member =>
    settledOn field.2 (direct_of_contentKeyed related field member)

theorem settled_namedFields_contents {expected : String} {contents : List (Content × Content)} :
    Settled (Reader.namedFields expected false fields (.content (.map contents))) := by
  unfold Reader.namedFields
  rw [Datum.force_direct rfl, pure_bind]
  refine Datum.settled_recordForm_contents.bind_given (fun form formed => ?_)
  obtain ⟨keyed, rfl, related⟩ := Datum.always_recordForm_contents_iff.1 formed
  have settled : Settled (fields.fillAll false fields.noSlots keyed) :=
    Fields.settled_fillAll fun field member =>
      settledOn field.2 (direct_of_contentKeyed related field member)
  exact settled.bind (fun _ => (Fields.settled_finish _).bind (fun _ => Read.settled_pure _))

theorem holds_of_namedFields {expected : String} {contents : List (Content × Content)}
    {others : List (FieldKey × Datum)}
    (always : Always (Reader.namedFields expected false fields (.content (.map contents)))
      (values, others)) :
    ∃ keyed, List.Forall₂ Datum.IsContentKeyed contents keyed ∧ fields.Holds keyed values := by
  unfold Reader.namedFields at always
  rw [Datum.force_direct rfl, pure_bind,
    Read.always_bind_iff Datum.settled_recordForm_contents] at always
  obtain ⟨form, formed, always⟩ := always
  obtain ⟨keyed, rfl, related⟩ := Datum.always_recordForm_contents_iff.1 formed
  have settled := fun field member =>
    settledOn field.2 (direct_of_contentKeyed related field member)
  obtain ⟨⟨filled, passed⟩, fills, always⟩ :=
    (Read.always_bind_iff (Fields.settled_fillAll settled)).1 always
  obtain ⟨found, finished, made⟩ := (Read.always_bind_iff (Fields.settled_finish _)).1 always
  cases Read.always_pure_iff.1 made
  exact ⟨keyed, related, Fields.holds_of_fills (Fields.fills_of_fillAll settled fills) finished⟩

end Records

theorem always_map_iff {α β : Type} {reader : Reader α} {change : α → β} {datum : Datum}
    {result : β} (settled : Settled (reader datum)) :
    Always (Reader.map change reader datum) result ↔
      ∃ value, Always (reader datum) value ∧ change value = result := by
  unfold Reader.map
  rw [Read.always_bind_iff settled]
  simp only [Read.always_pure_iff]

theorem always_fields_mapping_iff {place : Place} {tag : Option String}
    {entries : List (Node × Node)} (closed : Node.closedEntries entries) :
    Always (Reader.fields name fields (.node place (.mapping tag entries))) values ↔
      ∃ depth keyed, place.depth = depth + 1 ∧
        List.Forall₂ (Datum.IsKeyed ⟨place.anchors, depth, false⟩) entries keyed ∧
          Always (fields.readNamed keyed) values := by
  rw [always_fields_iff rfl (Datum.settled_recordForm_mapping closed)]
  · simp only [Datum.always_recordForm_mapping_iff closed, RecordForm.named.injEq]
    constructor
    · rintro ⟨keyed, ⟨depth, _, deep, rfl, related⟩, read⟩
      exact ⟨depth, keyed, deep, related, read⟩
    · rintro ⟨depth, keyed, deep, related, read⟩
      exact ⟨keyed, ⟨depth, keyed, deep, rfl, related⟩, read⟩
  · intro form formed
    obtain ⟨depth, keyed, -, same, -⟩ := (Datum.always_recordForm_mapping_iff closed).1 formed
    exact ⟨keyed, same⟩

theorem always_fields_contents_iff {contents : List (Content × Content)} :
    Always (Reader.fields name fields (.content (.map contents))) values ↔
      ∃ keyed, List.Forall₂ Datum.IsContentKeyed contents keyed ∧
        Always (fields.readNamed keyed) values := by
  rw [always_fields_iff rfl Datum.settled_recordForm_contents]
  · simp only [Datum.always_recordForm_contents_iff, RecordForm.named.injEq]
    constructor
    · rintro ⟨keyed, ⟨_, rfl, related⟩, read⟩
      exact ⟨keyed, related, read⟩
    · rintro ⟨keyed, related, read⟩
      exact ⟨keyed, ⟨keyed, rfl, related⟩, read⟩
  · intro form formed
    obtain ⟨keyed, same, -⟩ := Datum.always_recordForm_contents_iff.1 formed
    exact ⟨keyed, same⟩

end Reader

end ApiManifest
