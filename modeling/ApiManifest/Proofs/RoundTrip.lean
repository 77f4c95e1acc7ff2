import Mathlib.Data.List.Nodup
import ApiManifest.Proofs.JsonForms

/-!
What is written as JSON is read back. A codec is lawful if reading what it wrote yields the value
again. Records put together from lawful fields with different names are lawful in whatever order
their fields come, which is needed because an object's entries are sorted by key. Entries that are no
fields are passed over, unless a variant stands among them.
-/

namespace ApiManifest

variable {α : Type}

namespace Reader

/-- Reads that value from a JSON value in either form, whatever else is read. -/
def Yields (reader : Reader α) (json : Json) (value : α) : Prop :=
  ∀ form : JsonForm, reader (form.datum json) = pure value

theorem map_yields {β : Type} {reader : Reader α} {json : Json} {value : α}
    (yields : reader.Yields json value) (change : α → β) :
    (Reader.map change reader).Yields json (change value) := by
  intro form
  unfold Reader.map
  rw [yields form, pure_bind]

theorem option_yields {reader : Reader α} {json : Json} {value : α}
    (yields : reader.Yields json value) (given : json ≠ .null) :
    (Reader.option reader).Yields json (some value) := by
  intro form
  unfold Reader.option
  rw [form.force_datum, pure_bind, form.isNull_datum given, pure_bind, yields form, pure_bind]
  rfl

theorem mapM_yields {reader : Reader α} {write : α → Json}
    (yields : ∀ value, reader.Yields (write value) value) (form : JsonForm) (values : List α) :
    (values.map (fun value => form.datum (write value))).mapM reader = pure values := by
  rw [List.mapM_map]
  have all : reader ∘ (fun value => form.datum (write value)) = pure :=
    funext fun value => yields value form
  rw [all, List.mapM_pure, List.map_id']

theorem list_yields {reader : Reader α} {write : α → Json}
    (yields : ∀ value, reader.Yields (write value) value) (values : List α) :
    (Reader.list reader).Yields (.array (values.map write)) values := by
  intro form
  unfold Reader.list
  rw [form.items_datum, pure_bind, List.map_map]
  exact mapM_yields yields form values

end Reader

def Codec.Lawful (codec : Codec α) : Prop :=
  ∀ value, codec.read.Yields (codec.write value).toJson value

/-- A field that is written is read back, and one that is left out stands for its value. -/
structure WireField.Lawful (field : WireField α) : Prop where
  read : ∀ value wire, field.write value = some wire → field.read.Yields wire.toJson value
  missing : ∀ value, field.write value = none → field.missing.value? = some value

namespace Codec

theorem text_lawful : Codec.text.Lawful := fun value form => form.text_datum value

theorem flag_lawful : Codec.flag.Lawful := fun value form => form.flag_datum value

theorem int_yields {range : Datum.IntRange} {n : Int} (low : range.low ≤ n)
    (high : n ≤ range.high) : (Reader.int range).Yields (.int n) n := by
  intro form
  unfold Reader.int
  rw [form.int_datum, Datum.inRange, if_pos ⟨low, high⟩]

theorem int32_lawful : Codec.int32.Lawful := by
  intro value
  have inside : (Reader.int ⟨"i32", -0x80000000, 0x7fffffff⟩).Yields
      (.int value.toInt) value.toInt :=
    int_yields value.le_toInt (Int.le_of_lt_add_one value.toInt_lt)
  have yields := Reader.map_yields inside Int32.ofInt
  rw [Int32.ofInt_toInt] at yields
  exact yields

theorem int64_lawful : Codec.int64.Lawful := by
  intro value
  have inside : (Reader.int ⟨"i64", -0x8000000000000000, 0x7fffffffffffffff⟩).Yields
      (.int value.toInt) value.toInt :=
    int_yields value.le_toInt (Int.le_of_lt_add_one value.toInt_lt)
  have yields := Reader.map_yields inside Int64.ofInt
  rw [Int64.ofInt_toInt] at yields
  exact yields

theorem nat32_lawful : Codec.nat32.Lawful := by
  intro value
  have small := value.toNat_lt
  have high : (value.toNat : Int) ≤ 0xffffffff := by omega
  have inside : (Reader.int ⟨"u32", 0, 0xffffffff⟩).Yields (.int value.toNat) value.toNat :=
    int_yields (Int.natCast_nonneg _) high
  have yields := Reader.map_yields inside UInt32.ofInt
  have same : ((value.toNat : Int) % 2 ^ 32).toNat = value.toNat := by omega
  unfold UInt32.ofInt at yields
  rw [same, UInt32.ofNat_toNat] at yields
  exact yields

theorem list_lawful {item : Codec α} (lawful : item.Lawful) : (Codec.list item).Lawful := by
  intro values
  have written : ((Codec.list item).write values).toJson =
      .array (values.map (fun value => (item.write value).toJson)) := by
    change Json.array (Wire.itemsToJson (values.map item.write)) = _
    rw [Wire.itemsToJson_eq, List.map_map]
    rfl
  rw [written]
  exact Reader.list_yields lawful values

theorem choice_lawful {values : List (String × α)} {name : α → String}
    (named : ∀ value, values.lookup (name value) = some value) :
    (Codec.choice values name).Lawful := by
  intro value form
  have selected : select? (.name (name value)) values = some value := named value
  unfold Codec.choice Wire.toJson
  dsimp only
  rw [form.variantForm_text, pure_bind]
  simp only [selected]

end Codec

namespace WireField

theorem required_lawful {name : String} {codec : Codec α} (lawful : codec.Lawful) :
    (WireField.required name codec).Lawful where
  read := by
    intro value wire written
    cases written
    exact lawful value
  missing := by
    intro value written
    cases written

theorem option_lawful {codec : Codec α} (lawful : codec.Lawful) {field : WireField (Option α)}
    (reads : field.read = Reader.option codec.read) (writes : field.write = Option.map codec.write)
    (stands : field.missing.value? = some none) : field.Lawful where
  read := by
    intro value wire written
    rw [writes] at written
    obtain ⟨given, rfl, rfl⟩ := Option.map_eq_some_iff.1 written
    rw [reads]
    exact Reader.option_yields (lawful given) (Wire.toJson_ne_null _)
  missing := by
    intro value written
    rw [writes] at written
    rw [stands, Option.map_eq_none_iff.1 written]

theorem optional_lawful {name : String} {codec : Codec α} (lawful : codec.Lawful) :
    (WireField.optional name codec).Lawful :=
  option_lawful lawful rfl rfl rfl

theorem items_lawful {name : String} {codec : Codec α} (lawful : codec.Lawful) :
    (WireField.items name codec).Lawful where
  read := by
    intro values wire written
    change (if values.isEmpty then none else _) = some wire at written
    split at written
    · cases written
    · cases written
      exact Codec.list_lawful lawful values
  missing := by
    intro values written
    change (if values.isEmpty then none else some _) = none at written
    split at written
    · next empty =>
      rw [List.isEmpty_iff.1 empty]
      rfl
    · cases written

theorem textOrEmpty_lawful {name : String} : (WireField.textOrEmpty name).Lawful where
  read := by
    intro text wire written
    change (if text.isEmpty then none else _) = some wire at written
    split at written
    · cases written
    · cases written
      exact Codec.text_lawful text
  missing := by
    intro text written
    change (if text.isEmpty then none else some _) = none at written
    split at written
    · next empty =>
      rw [String.isEmpty_iff.1 empty]
      rfl
    · cases written

theorem textAlways_lawful {name : String} : (WireField.textAlways name).Lawful where
  read := by
    intro text wire written
    cases written
    exact Codec.text_lawful text
  missing := by
    intro text written
    cases written

end WireField

/-! ### Records -/

namespace Fields

variable {σ : Type}

def Lawful : {σ : Type} → Fields WireField σ → Prop
  | _, .nil => True
  | _, .cons field rest => field.Lawful ∧ rest.Lawful

theorem Lawful.nil : (Fields.nil : Fields WireField Unit).Lawful := trivial

theorem Lawful.cons {β : Type} {field : WireField α} {rest : Fields WireField β}
    (first : field.Lawful) (others : rest.Lawful) : (Fields.cons field rest).Lawful :=
  ⟨first, others⟩

def Writes (fields : Fields WireField σ) (values : σ) (name : String) (json : Json) : Prop :=
  ∃ wire, (name, wire) ∈ fields.write values ∧ wire.toJson = json

def slotsOf (come : String → Bool) : {σ : Type} → (fields : Fields WireField σ) → σ →
    fields.readers.Slots
  | _, .nil, _ => ()
  | _, .cons (α := α) field rest, (value, others) =>
    let first : Option α :=
      if come field.name && (field.write value).isSome then some value else none
    (first, slotsOf come rest others)

theorem slotsOf_cons {β : Type} (come : String → Bool) (field : WireField α)
    (rest : Fields WireField β) (value : α) (others : β) :
    slotsOf come (.cons field rest) (value, others) =
      (((if come field.name && (field.write value).isSome then some value else none),
        slotsOf come rest others) : Option α × rest.readers.Slots) := rfl

theorem slotsOf_none (fields : Fields WireField σ) (values : σ) :
    slotsOf (fun _ => false) fields values = fields.readers.noSlots := by
  induction fields with
  | nil => rfl
  | cons field rest ih =>
    obtain ⟨value, others⟩ := values
    exact Prod.ext rfl (ih others)

theorem slotsOf_congr {fields : Fields WireField σ} {come seen : String → Bool}
    (same : ∀ name ∈ fields.names, come name = seen name) (values : σ) :
    slotsOf come fields values = slotsOf seen fields values := by
  induction fields with
  | nil => rfl
  | cons field rest ih =>
    obtain ⟨value, others⟩ := values
    rw [slotsOf_cons, slotsOf_cons, same field.name List.mem_cons_self,
      ih (fun name member => same name (List.mem_cons_of_mem _ member)) others]

theorem mem_names_of_mem_write {fields : Fields WireField σ} {values : σ} {entry : String × Wire}
    (written : entry ∈ fields.write values) : entry.1 ∈ fields.names :=
  (fields.write_names values).subset (List.mem_map_of_mem written)

theorem write_cons_cases {β : Type} {field : WireField α} {rest : Fields WireField β} {value : α}
    {others : β} {name : String} {json : Json}
    (distinct : (Fields.cons field rest).names.Nodup)
    (written : (Fields.cons field rest).Writes (value, others) name json) :
    (name = field.name ∧ ∃ wire, field.write value = some wire ∧ wire.toJson = json) ∨
      (name ≠ field.name ∧ rest.Writes others name json) := by
  obtain ⟨wire, member, same⟩ := written
  have fresh : field.name ∉ rest.names := (List.nodup_cons.1 distinct).1
  have later : (name, wire) ∈ rest.write others →
      name ≠ field.name ∧ rest.Writes others name json := by
    intro inside
    refine ⟨fun equal => fresh ?_, wire, inside, same⟩
    rw [← equal]
    exact mem_names_of_mem_write inside
  unfold write at member
  cases given : field.write value with
  | none =>
    rw [given] at member
    exact Or.inr (later member)
  | some own =>
    rw [given] at member
    rcases List.mem_cons.1 member with first | inside
    · cases first
      exact Or.inl ⟨rfl, wire, rfl, same⟩
    · exact Or.inr (later inside)

section Fill

variable {β : Type} {field : WireField α} {rest : Fields WireField β} (again : Bool)

theorem fill_self {json : Json} {value : α} (yields : field.read.Yields json value)
    (form : JsonForm) (others : rest.readers.Slots) :
    (Fields.cons field rest).readers.fill again (.name field.name) (form.datum json)
        ((none, others) : Option α × rest.readers.Slots) =
      some (pure ((some value, others) : Option α × rest.readers.Slots)) := by
  refine (if_pos (decide_eq_true rfl)).trans (congrArg some ?_)
  change (field.read (form.datum json) >>= _) = _
  rw [yields form]
  rfl

theorem fill_other {name : String} (different : name ≠ field.name) {datum : Datum}
    {slots : rest.readers.Slots} (own : Option α) :
    (Fields.cons field rest).readers.fill again (.name name) datum
        ((own, slots) : Option α × rest.readers.Slots) =
      (rest.readers.fill again (.name name) datum slots).map (fun reading =>
        (do return (own, ← reading) : Read (Option α × rest.readers.Slots))) := by
  have unselected : ¬ selectsFirst (.name name) field.name = true := by
    simpa [selectsFirst] using different
  exact if_neg unselected

end Fill

section Filling

variable {fields : Fields WireField σ} (again : Bool)

theorem fill_written (lawful : fields.Lawful) (distinct : fields.names.Nodup) {values : σ}
    {name : String} {json : Json} (written : fields.Writes values name json)
    {come : String → Bool} (fresh : come name = false) (form : JsonForm) :
    fields.readers.fill again (.name name) (form.datum json) (slotsOf come fields values) =
      some (pure (slotsOf (fun other => other == name || come other) fields values)) := by
  induction fields with
  | nil =>
    obtain ⟨wire, member, _⟩ := written
    cases member
  | cons field rest ih =>
    obtain ⟨value, others⟩ := values
    obtain ⟨first, lawful⟩ := lawful
    rcases write_cons_cases distinct written with ⟨rfl, wire, given, rfl⟩ | ⟨different, inside⟩
    · -- The name is no later field's, so the later slots stay as they are.
      have later : slotsOf (fun other => other == field.name || come other) rest others =
          slotsOf come rest others := by
        refine slotsOf_congr (fun other member => ?_) others
        have unlike : other ≠ field.name := by
          rintro rfl
          exact (List.nodup_cons.1 distinct).1 member
        simp [unlike]
      rw [slotsOf_cons, slotsOf_cons, later, fresh, given, beq_self_eq_true]
      exact fill_self again (first.read value wire given) form _
    · have kept : (field.name == name || come field.name) = come field.name := by
        simp [different.symm]
      have fills := ih lawful (List.nodup_cons.1 distinct).2 inside
      rw [slotsOf_cons, slotsOf_cons, kept, fill_other again different, fills]
      rfl

theorem fill_unknown {name : String} (unknown : name ∉ fields.names) (datum : Datum)
    (slots : fields.readers.Slots) :
    fields.readers.fill again (.name name) datum slots = none := by
  induction fields with
  | nil => rfl
  | cons field rest ih =>
    obtain ⟨own, slots⟩ : Option _ × rest.readers.Slots := slots
    have different : name ≠ field.name := fun same => unknown (same ▸ List.mem_cons_self)
    have fills := ih (fun member => unknown (List.mem_cons_of_mem _ member)) slots
    exact (fill_other again different own).trans (congrArg (Option.map _) fills)

/-- The entries that are no fields, as a reader of that form gets to see them. -/
def others (fields : Fields WireField σ) (form : JsonForm) (entries : List (String × Json)) :
    List (FieldKey × Datum) :=
  (entries.filter (fun entry => entry.1 ∉ fields.names)).map
    (fun entry => (.name entry.1, form.datum entry.2))

/-- Entries that are written fill their slots, in whatever order they come. -/
theorem fillAll_written (lawful : fields.Lawful) (distinct : fields.names.Nodup) {values : σ}
    {entries : List (String × Json)}
    (written : ∀ entry ∈ entries, entry.1 ∈ fields.names → fields.Writes values entry.1 entry.2)
    (once : (entries.map Prod.fst).Nodup) (come : String → Bool)
    (fresh : ∀ entry ∈ entries, come entry.1 = false) (form : JsonForm) :
    ∃ seen, (∀ name ∈ fields.names,
        seen name = true ↔ come name = true ∨ name ∈ entries.map Prod.fst) ∧
      fields.readers.fillAll again (slotsOf come fields values)
          (entries.map (fun entry => (.name entry.1, form.datum entry.2))) =
        pure (slotsOf seen fields values, others fields form entries) := by
  induction entries generalizing come with
  | nil => exact ⟨come, by simp, rfl⟩
  | cons entry rest ih =>
    obtain ⟨name, json⟩ := entry
    rw [List.map_cons, List.nodup_cons] at once
    have restWritten := fun entry member => written entry (List.mem_cons_of_mem _ member)
    by_cases known : name ∈ fields.names
    · have fills := fill_written again lawful distinct (written _ List.mem_cons_self known)
        (fresh _ List.mem_cons_self) form
      have later : ∀ entry ∈ rest, (fun other => other == name || come other) entry.1 = false := by
        intro entry member
        have unlike : entry.1 ≠ name := fun equal =>
          once.1 (List.mem_map.2 ⟨entry, member, equal⟩)
        simp [unlike, fresh entry (List.mem_cons_of_mem _ member)]
      obtain ⟨seen, names, done⟩ :=
        ih restWritten once.2 (fun other => other == name || come other) later
      refine ⟨seen, fun other inside => ?_, ?_⟩
      · rw [names other inside, List.map_cons, List.mem_cons]
        simp only [Bool.or_eq_true, beq_iff_eq]
        tauto
      · have same : others fields form ((name, json) :: rest) = others fields form rest := by
          simp [others, known]
        rw [List.map_cons, fillAll, fills, same]
        exact done
    · obtain ⟨seen, names, done⟩ := ih restWritten once.2 come
        (fun entry member => fresh entry (List.mem_cons_of_mem _ member))
      refine ⟨seen, fun other inside => ?_, ?_⟩
      · have unlike : other ≠ name := fun equal => known (equal ▸ inside)
        rw [names other inside, List.map_cons, List.mem_cons]
        simp [unlike]
      · have more : others fields form ((name, json) :: rest) =
            (.name name, form.datum json) :: others fields form rest := by
          simp [others, known]
        rw [List.map_cons, fillAll, fill_unknown again known, more]
        exact congrArg (· >>= fun filled => pure (filled.1, _ :: filled.2)) done

theorem finish_missing {β : Type} {field : WireField α} {rest : Fields WireField β} {value : α}
    (stands : field.missing.value? = some value) (others : rest.readers.Slots) :
    (Fields.cons field rest).readers.finish ((none, others) : Option α × rest.readers.Slots) =
      (do return (value, ← rest.readers.finish others) : Read (α × β)) := by
  obtain ⟨⟨name, read, missing⟩, write⟩ := field
  cases missing <;> cases stands <;> rfl

theorem finish_written (lawful : fields.Lawful) {values : σ} {come : String → Bool}
    (complete : ∀ entry ∈ fields.write values, come entry.1 = true) :
    fields.readers.finish (slotsOf come fields values) = pure values := by
  induction fields with
  | nil => rfl
  | cons field rest ih =>
    obtain ⟨value, others⟩ := values
    obtain ⟨first, lawful⟩ := lawful
    rw [slotsOf_cons]
    have following : ∀ entry ∈ rest.write others, come entry.1 = true := by
      intro entry member
      refine complete entry ?_
      unfold write
      cases field.write value with
      | none => exact member
      | some wire => exact List.mem_cons_of_mem _ member
    have there := ih lawful following
    cases given : field.write value with
    | some wire =>
      have here : come field.name = true := by
        refine complete (field.name, wire) ?_
        unfold write
        rw [given]
        exact List.mem_cons_self
      rw [here]
      exact congrArg (· >>= fun later => pure (value, later)) there
    | none =>
      have stands := first.missing value given
      rw [Option.isSome_none, Bool.and_false]
      refine (finish_missing stands _).trans ?_
      exact congrArg (· >>= fun later => pure (value, later)) there

end Filling

/-- The entries are the written fields and others that are no fields. -/
structure Among (fields : Fields WireField σ) (values : σ) (entries : List (String × Wire)) :
    Prop where
  written : ∀ entry ∈ fields.write values, entry ∈ entries
  known : ∀ entry ∈ entries, entry.1 ∈ fields.names → entry ∈ fields.write values

theorem among_self (fields : Fields WireField σ) (values : σ) :
    fields.Among values (fields.write values) :=
  ⟨fun _ member => member, fun _ member _ => member⟩

def objectEntries (entries : List (String × Wire)) : List (String × Json) :=
  (SortedDict.ofList (Wire.fieldsToJson entries)).entries

theorem toJson_record (entries : List (String × Wire)) :
    (Wire.record entries).toJson = .object (objectEntries entries) := by
  unfold Wire.toJson Json.ofEntries objectEntries
  rfl

theorem fillAll_object {fields : Fields WireField σ} (lawful : fields.Lawful)
    (distinct : fields.names.Nodup) {values : σ} {entries : List (String × Wire)}
    (among : fields.Among values entries) (again : Bool) (form : JsonForm) :
    ∃ slots, fields.readers.finish slots = pure values ∧
      fields.readers.fillAll again fields.readers.noSlots
          ((objectEntries entries).map (fun entry => (.name entry.1, form.datum entry.2))) =
        pure (slots, others fields form (objectEntries entries)) := by
  have written : ∀ entry ∈ objectEntries entries, entry.1 ∈ fields.names →
      fields.Writes values entry.1 entry.2 := by
    intro entry member known
    have given := SortedDict.mem_of_mem_ofList member
    rw [Wire.fieldsToJson_eq] at given
    obtain ⟨own, inside, rfl⟩ := List.mem_map.1 given
    exact ⟨own.2, among.known own inside known, rfl⟩
  have once : ((objectEntries entries).map Prod.fst).Nodup :=
    SortedDict.nodup_of_sorted (SortedDict.ofList _).sorted
  obtain ⟨seen, names, filled⟩ :=
    fillAll_written again lawful distinct written once (fun _ => false) (fun _ _ => rfl) form
  rw [slotsOf_none] at filled
  refine ⟨slotsOf seen fields values, finish_written lawful fun entry member => ?_, filled⟩
  have given : (entry.1, entry.2.toJson) ∈ Wire.fieldsToJson entries := by
    rw [Wire.fieldsToJson_eq]
    exact List.mem_map_of_mem (among.written entry member)
  have known := mem_names_of_mem_write member
  exact (names entry.1 known).2 (Or.inr (SortedDict.mem_keys_ofList given))

end Fields

variable {σ : Type}

namespace Reader

variable {fields : Fields WireField σ} {values : σ} {entries : List (String × Wire)}

/-- The fields of a record are read back from the object that they are written to. -/
theorem fields_yields (lawful : fields.Lawful) (distinct : fields.names.Nodup) (name : String)
    (among : fields.Among values entries) :
    (Reader.fields name fields.readers).Yields (Wire.record entries).toJson values := by
  intro form
  obtain ⟨slots, complete, filled⟩ := Fields.fillAll_object lawful distinct among false form
  unfold Reader.fields
  rw [Fields.toJson_record, form.force_datum, pure_bind, form.recordForm_datum, pure_bind]
  dsimp only
  rw [filled, pure_bind]
  exact complete

theorem namedFields_yields (lawful : fields.Lawful) (distinct : fields.names.Nodup)
    (expected : String) (again : Bool) (among : fields.Among values entries) (form : JsonForm) :
    Reader.namedFields expected again fields.readers
        (form.datum (Wire.record entries).toJson) =
      pure (values, Fields.others fields form (Fields.objectEntries entries)) := by
  obtain ⟨slots, complete, filled⟩ := Fields.fillAll_object lawful distinct among again form
  unfold Reader.namedFields
  rw [Fields.toJson_record, form.force_datum, pure_bind, form.recordForm_datum, pure_bind]
  dsimp only
  rw [filled, pure_bind]
  dsimp only
  rw [complete, pure_bind]

end Reader

namespace Codec

theorem record_lawful {fields : Fields WireField σ} (lawful : fields.Lawful)
    (distinct : fields.names.Nodup) {name : String} {build : σ → α} {parts : α → σ}
    (rebuilds : ∀ value, build (parts value) = value) :
    (Codec.record name fields build parts).Lawful := by
  intro value
  have yields := Reader.map_yields
    (Reader.fields_yields lawful distinct name (Fields.among_self fields (parts value))) build
  rw [rebuilds] at yields
  exact yields

theorem sorted_lawful {item : Codec α} (lawful : item.Lawful) : (Codec.sorted item).Lawful := by
  intro dict form
  let written : List (String × Json) :=
    dict.entries.map (fun entry => (entry.1, (item.write entry.2).toJson))
  have sorted : written.Pairwise (fun left right => left.1 < right.1) :=
    List.pairwise_map.2 dict.sorted
  have object : ((Codec.sorted item).write dict).toJson = .object written := by
    change (Wire.record _).toJson = _
    rw [Fields.toJson_record, Fields.objectEntries, Wire.fieldsToJson_eq, List.map_map]
    exact congrArg Json.object (SortedDict.entries_ofList sorted)
  have items : (dict.entries.map (fun entry =>
      (entry.1, form.datum (item.write entry.2).toJson))).mapM
        (fun entry => return (entry.1, ← item.read entry.2)) = (pure dict.entries : Read _) := by
    rw [List.mapM_map]
    have all : (fun entry : String × Datum => (do return (entry.1, ← item.read entry.2) : Read _)) ∘
        (fun entry => (entry.1, form.datum (item.write entry.2).toJson)) = pure := by
      funext entry
      simp only [Function.comp_apply]
      rw [lawful entry.2 form, pure_bind]
    rw [all, List.mapM_pure, List.map_id']
  have entries : Reader.entries item.read (form.datum (.object written)) = pure dict.entries := by
    unfold Reader.entries
    rw [form.entries_datum, pure_bind, List.map_map]
    exact items
  rw [object]
  change (Reader.entries item.read (form.datum (.object written)) >>= _) = _
  rw [entries, pure_bind, SortedDict.ofList_entries]

def Variants.Lawful (choice : Variants α) : Prop :=
  ∀ value, ∃ reader, choice.readers.lookup (choice.write value).1 = some reader ∧
    reader.Yields (choice.write value).2.toJson value

theorem variants_lawful {choice : Variants α} (lawful : choice.Lawful) :
    (Codec.variants choice).Lawful := by
  intro value form
  obtain ⟨reader, found, yields⟩ := lawful value
  have selected : select? (.name (choice.write value).1) choice.readers = some reader := found
  unfold Codec.variants Wire.toJson
  dsimp only
  rw [form.variantForm_object, pure_bind]
  simp only [selected]
  exact yields form

section Flattened

variable {β : Type} {fields : Fields WireField σ} {values : σ} {tag : String} {payload : Wire}

theorem among_variant (apart : tag ∉ fields.names) :
    fields.Among values (fields.write values ++ [(tag, payload)]) where
  written entry member := List.mem_append_left _ member
  known entry member known := by
    rcases List.mem_append.1 member with inside | last
    · exact inside
    · rw [List.mem_singleton.1 last] at known
      exact absurd known apart

/-- Besides the fields, only the variant is left in the object. -/
theorem others_variant (apart : tag ∉ fields.names) (form : JsonForm) :
    Fields.others fields form (Fields.objectEntries (fields.write values ++ [(tag, payload)])) =
      [(.name tag, form.datum payload.toJson)] := by
  let entries := Fields.objectEntries (fields.write values ++ [(tag, payload)])
  let left := entries.filter (fun entry => entry.1 ∉ fields.names)
  have once : (entries.map Prod.fst).Nodup :=
    SortedDict.nodup_of_sorted (SortedDict.ofList _).sorted
  have unknown : ∀ entry ∈ entries, entry.1 ∉ fields.names → entry = (tag, payload.toJson) := by
    intro entry member unknown
    have inside := SortedDict.mem_of_mem_ofList member
    rw [Wire.fieldsToJson_eq] at inside
    obtain ⟨own, given, rfl⟩ := List.mem_map.1 inside
    rcases List.mem_append.1 given with field | last
    · exact absurd (Fields.mem_names_of_mem_write field) unknown
    · rw [List.mem_singleton.1 last]
  have there : (tag, payload.toJson) ∈ entries := by
    have inside : (tag, payload.toJson) ∈
        Wire.fieldsToJson (fields.write values ++ [(tag, payload)]) := by
      rw [Wire.fieldsToJson_eq]
      exact List.mem_map_of_mem (List.mem_append_right _ List.mem_cons_self)
    obtain ⟨entry, member, same⟩ := List.mem_map.1 (SortedDict.mem_keys_ofList inside)
    rw [← unknown entry member (by rw [same]; exact apart)]
    exact member
  have only : ∀ entry, entry ∈ left ↔ entry = (tag, payload.toJson) := by
    intro entry
    rw [List.mem_filter, decide_eq_true_iff]
    constructor
    · exact fun ⟨member, apart⟩ => unknown entry member apart
    · rintro rfl
      exact ⟨there, apart⟩
  have single : left = [(tag, payload.toJson)] := by
    have nodup : left.Nodup := (List.Nodup.of_map _ once).filter _
    refine List.perm_singleton.1 ((List.perm_ext_iff_of_nodup nodup (List.nodup_singleton _)).2 ?_)
    intro entry
    rw [only, List.mem_singleton]
  exact congrArg (List.map _) single

/-- The variant is read from typed content, in whichever form the record is read. -/
theorem recordWith_lawful {choice : Variants β} (lawful : fields.Lawful)
    (distinct : fields.names.Nodup) (carried : choice.Lawful)
    (apart : ∀ value, (choice.write value).1 ∉ fields.names) {name : String} {build : σ → β → α}
    {parts : α → σ} {variant : α → β}
    (rebuilds : ∀ value, build (parts value) (variant value) = value) :
    (recordWith name fields choice build parts variant).Lawful := by
  intro value form
  obtain ⟨reader, found, yields⟩ := carried (variant value)
  have selected : select? (.name (choice.write (variant value)).1) choice.readers = some reader :=
    found
  have typed : reader (.content (.ofJson (choice.write (variant value)).2.toJson)) =
      pure (variant value) := yields .typed
  have among : fields.Among (parts value) (fields.write (parts value) ++ [((choice.write
      (variant value)).1, (choice.write (variant value)).2)]) := among_variant (apart _)
  have fieldsRead :=
    Reader.namedFields_yields lawful distinct ("struct " ++ name) false among form
  rw [others_variant (apart (variant value))] at fieldsRead
  unfold recordWith
  dsimp only
  rw [fieldsRead, pure_bind]
  dsimp only
  rw [List.mapM_cons, List.mapM_nil, form.typed_datum, pure_bind, pure_bind, pure_bind, pure_bind]
  unfold readVariant
  simp only [selected]
  rw [typed, pure_bind, rebuilds]

end Flattened

end Codec

end ApiManifest
