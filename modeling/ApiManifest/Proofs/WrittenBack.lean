import ApiManifest.Proofs.RoundTrip

/-!
What is read from a JSON value is written as it stood. A record takes the value of each field from
what stands there for it, by its name in an object or by its place in an array, and a field that
writes back what it read is written as just that. Of an object with no other entries than its fields
nothing is lost, and nothing is added to it.
-/

namespace ApiManifest

variable {α β : Type}

theorem Read.bind_ok {first : Read α} {next : α → Read β} {left rest : Nat} {result : β}
    (done : (first >>= next) left = .ok (result, rest)) :
    ∃ value between, first left = .ok (value, between) ∧
      next value between = .ok (result, rest) := by
  change (first left >>= fun step => next step.1 step.2) = .ok (result, rest) at done
  cases made : first left with
  | error error =>
    rw [made] at done
    cases done
  | ok step =>
    rw [made] at done
    exact ⟨step.1, step.2, rfl, done⟩

namespace Reader

def Gives (reader : Reader α) (json : Json) (value : α) : Prop :=
  ∃ left rest, reader (.json json) left = .ok (value, rest)

variable {json : Json}

theorem text_gives {text : String} (gives : Reader.text.Gives json text) :
    json = .string text := by
  obtain ⟨left, rest, done⟩ := gives
  cases json with
  | string own =>
    cases done
    rfl
  | _ => cases done

theorem int_gives {range : Datum.IntRange} {n : Int} (gives : (Reader.int range).Gives json n) :
    json = .int n ∧ range.low ≤ n ∧ n ≤ range.high := by
  obtain ⟨left, rest, done⟩ := gives
  cases json with
  | int own =>
    change Datum.inRange range own left = _ at done
    unfold Datum.inRange at done
    split at done
    · next inside =>
      cases done
      exact ⟨rfl, inside⟩
    · cases done
  | _ => cases done

theorem map_gives {reader : Reader α} {change : α → β} {result : β}
    (gives : (Reader.map change reader).Gives json result) :
    ∃ value, reader.Gives json value ∧ change value = result := by
  obtain ⟨left, rest, done⟩ := gives
  obtain ⟨value, between, given, done⟩ := Read.bind_ok done
  cases done
  exact ⟨value, ⟨left, _, given⟩, rfl⟩

theorem option_gives {reader : Reader α} {value : Option α}
    (gives : (Reader.option reader).Gives json value) :
    json = .null ∧ value = none ∨
      json ≠ .null ∧ ∃ given, value = some given ∧ reader.Gives json given := by
  obtain ⟨left, rest, done⟩ := gives
  by_cases absent : json = .null
  · subst absent
    cases done
    exact Or.inl ⟨rfl, rfl⟩
  · right
    have filled : (Datum.json json).isNull = pure false := JsonForm.plain.isNull_datum absent
    have forced : (Datum.json json).force = pure (Datum.json json) := rfl
    unfold Reader.option at done
    rw [forced, pure_bind, filled, pure_bind] at done
    obtain ⟨given, between, gives, done⟩ := Read.bind_ok done
    cases done
    exact ⟨absent, given, rfl, left, _, gives⟩

theorem mapM_gives {reader : Reader α} {items : List Json} {values : List α} {left rest : Nat}
    (done : (items.map Datum.json).mapM reader left = .ok (values, rest)) :
    List.Forall₂ reader.Gives items values := by
  induction items generalizing values left with
  | nil =>
    cases done
    exact .nil
  | cons item others ih =>
    rw [List.map_cons, List.mapM_cons] at done
    obtain ⟨value, between, given, done⟩ := Read.bind_ok done
    obtain ⟨later, _, made, done⟩ := Read.bind_ok done
    cases done
    exact .cons ⟨left, between, given⟩ (ih made)

theorem list_gives {reader : Reader α} {values : List α}
    (gives : (Reader.list reader).Gives json values) :
    ∃ items, json = .array items ∧ List.Forall₂ reader.Gives items values := by
  obtain ⟨left, rest, done⟩ := gives
  obtain ⟨data, between, found, done⟩ := Read.bind_ok done
  cases json with
  | array items =>
    cases found
    exact ⟨items, rfl, mapM_gives done⟩
  | _ => cases found

end Reader

/-! ### Codecs that write back what they read -/

/-- A JSON value of that kind is written as it was read. -/
def Codec.Preserves (codec : Codec α) (kind : Json → Prop) : Prop :=
  ∀ json value, kind json → codec.read.Gives json value → (codec.write value).toJson = json

theorem Codec.Preserves.of_imp {codec : Codec α} {weak strong : Json → Prop}
    (preserves : codec.Preserves weak) (implies : ∀ json, strong json → weak json) :
    codec.Preserves strong :=
  fun json value kind gives => preserves json value (implies json kind) gives

namespace Codec

def IsText (json : Json) : Prop :=
  ∃ text, json = .string text

def ItemsAre (kind : Json → Prop) (json : Json) : Prop :=
  ∀ items, json = .array items → ∀ item ∈ items, kind item

theorem text_preserves {kind : Json → Prop} : Codec.text.Preserves kind := by
  intro json text _ gives
  exact (Reader.text_gives gives).symm

theorem int32_preserves {kind : Json → Prop} : Codec.int32.Preserves kind := by
  intro json value _ gives
  obtain ⟨n, read, rfl⟩ := Reader.map_gives gives
  obtain ⟨rfl, low, high⟩ := Reader.int_gives read
  have same : (Int32.ofInt n).toInt = n :=
    Int32.toInt_ofInt_of_le low (Int.lt_add_one_of_le high)
  change Json.int (Int32.ofInt n).toInt = .int n
  rw [same]

/-- A name is written back, but a choice may also be given as an object. -/
theorem choice_preserves {all : List α} {name : α → String} :
    (Codec.choice (all.map (fun value => (name value, value))) name).Preserves IsText := by
  rintro json value ⟨text, rfl⟩ ⟨left, rest, done⟩
  have form : (Datum.json (.string text)).variantForm = pure ⟨.name text, none⟩ := rfl
  unfold Codec.choice at done
  dsimp only at done
  rw [form, pure_bind] at done
  dsimp only at done
  cases selected : select? (.name text) (all.map (fun value => (name value, value))) with
  | none =>
    rw [selected] at done
    cases done
  | some chosen =>
    rw [selected] at done
    cases done
    obtain ⟨own, _, same⟩ := List.mem_map.1 (Dict.mem_of_lookup selected)
    cases same
    rfl

theorem list_preserves {item : Codec α} {kind : Json → Prop} (preserves : item.Preserves kind) :
    (Codec.list item).Preserves (ItemsAre kind) := by
  intro json values kinds gives
  obtain ⟨items, rfl, each⟩ := Reader.list_gives gives
  have all := kinds items rfl
  change Json.array (Wire.itemsToJson (values.map item.write)) = .array items
  rw [Wire.itemsToJson_eq, List.map_map]
  congr 1
  clear gives kinds
  induction each with
  | nil => rfl
  | @cons first value rest others here _ ih =>
    rw [List.map_cons, ih fun item later => all item (List.mem_cons_of_mem _ later)]
    exact congrArg (· :: rest) (preserves first value (all first List.mem_cons_self) here)

theorem texts_preserves {kind : Json → Prop} : (Codec.list .text).Preserves kind :=
  (list_preserves (text_preserves : Codec.text.Preserves (fun _ => True))).of_imp
    fun _ _ _ _ _ _ => trivial

end Codec

/-! ### Records -/

def Json.field? (names : List String) (json : Json) (name : String) : Option Json :=
  match json with
  | .object entries => entries.lookup name
  | .array items => items[names.idxOf name]?
  | _ => none

/-- The field takes that value where this stands for it, or nothing does. -/
def Field.Takes (field : Field α) : Option Json → α → Prop
  | some json, value => field.read.Gives json value
  | none, value => field.missing.value? = some value

namespace Fields

variable {σ : Type}

def Takes (found : String → Option Json) : {σ : Type} → Fields WireField σ → σ → Prop
  | _, .nil, _ => True
  | _, .cons field rest, (value, others) =>
    field.toField.Takes (found field.name) value ∧ rest.Takes found others

def Filled (found : String → Option Json) :
    {σ : Type} → (fields : Fields WireField σ) → fields.readers.Slots → Prop
  | _, .nil, _ => True
  | _, .cons (α := α) field rest, slots =>
    let slots : Option α × rest.readers.Slots := slots
    Option.Rel field.read.Gives (found field.name) slots.1 ∧ rest.Filled found slots.2

section Congr

variable {fields : Fields WireField σ} {found other : String → Option Json}

theorem Takes.congr {values : σ} (takes : fields.Takes found values)
    (same : ∀ name ∈ fields.names, found name = other name) : fields.Takes other values := by
  induction fields with
  | nil => trivial
  | cons field rest ih =>
    obtain ⟨value, others⟩ := values
    obtain ⟨first, later⟩ := takes
    refine ⟨?_, ih later fun name member => same name (List.mem_cons_of_mem _ member)⟩
    rw [← same field.name List.mem_cons_self]
    exact first

theorem Filled.congr {slots : fields.readers.Slots} (filled : fields.Filled found slots)
    (same : ∀ name ∈ fields.names, found name = other name) : fields.Filled other slots := by
  induction fields with
  | nil => trivial
  | cons field rest ih =>
    obtain ⟨own, slots⟩ : Option _ × rest.readers.Slots := slots
    obtain ⟨first, later⟩ := filled
    refine ⟨?_, ih later fun name member => same name (List.mem_cons_of_mem _ member)⟩
    rw [← same field.name List.mem_cons_self]
    exact first

end Congr

theorem filled_noSlots (fields : Fields WireField σ) :
    fields.Filled (fun _ => none) fields.readers.noSlots := by
  induction fields with
  | nil => trivial
  | cons field rest ih => exact ⟨.none, ih⟩

section Filling

variable {fields : Fields WireField σ} {found : String → Option Json} {name : String} {json : Json}
  {slots filled : fields.readers.Slots} {left rest : Nat}

def more (found : String → Option Json) (name : String) (json : Json) (other : String) :
    Option Json :=
  (found other).or (if other = name then some json else none)

theorem more_of_ne {other : String} (different : other ≠ name) :
    more found name json other = found other := by
  unfold more
  rw [if_neg different, Option.or_none]

theorem fill_self_eq {field : WireField α} {others : Fields WireField σ} (datum : Datum)
    (own : Option α) (slots : others.readers.Slots) :
    (Fields.cons field others).readers.fill false (.name field.name) datum
        ((own, slots) : Option α × others.readers.Slots) =
      some (do
        if own.isSome && !false then Read.refuse (.repeatedField field.name)
        return ((some (← field.read datum), slots) : Option α × others.readers.Slots)) :=
  if_pos (decide_eq_true rfl)

theorem not_mem_names_of_fill
    (passed : fields.readers.fill false (.name name) (.json json) slots = none) :
    name ∉ fields.names := by
  induction fields with
  | nil => exact List.not_mem_nil
  | cons field others ih =>
    obtain ⟨own, slots⟩ : Option _ × others.readers.Slots := slots
    intro member
    by_cases same : name = field.name
    · subst same
      cases (fill_self_eq (.json json) own slots).symm.trans passed
    · have inner := Option.map_eq_none_iff.1 ((fill_other false same own).symm.trans passed)
      exact ih inner ((List.mem_cons.1 member).resolve_left same)

theorem fill_filled (distinct : fields.names.Nodup) (before : fields.Filled found slots)
    {reading : Read fields.readers.Slots}
    (selects : fields.readers.fill false (.name name) (.json json) slots = some reading)
    (done : reading left = .ok (filled, rest)) :
    fields.Filled (more found name json) filled := by
  induction fields with
  | nil => cases selects
  | cons field others ih =>
    obtain ⟨own, slots⟩ : Option _ × others.readers.Slots := slots
    obtain ⟨first, later⟩ := before
    by_cases same : name = field.name
    · subst same
      cases Option.some.inj ((fill_self_eq (.json json) own slots).symm.trans selects)
      cases own with
      | some value => cases done
      | none =>
        obtain ⟨value, between, made, done⟩ := Read.bind_ok done
        cases done
        have fresh : found field.name = none := by
          cases here : found field.name with
          | none => rfl
          | some json =>
            rw [here] at first
            cases first
        refine ⟨?_, later.congr fun name member => ?_⟩
        · unfold more
          rw [fresh, Option.none_or, if_pos rfl]
          exact .some ⟨left, _, made⟩
        · have unlike : name ≠ field.name := by
            rintro rfl
            exact (List.nodup_cons.1 distinct).1 member
          exact (more_of_ne unlike).symm
    · rw [fill_other false same] at selects
      obtain ⟨inner, chosen, rfl⟩ := Option.map_eq_some_iff.1 selects
      obtain ⟨slots', between, made, done⟩ := Read.bind_ok done
      cases done
      refine ⟨?_, ih (List.nodup_cons.1 distinct).2 later chosen made⟩
      rw [more_of_ne (Ne.symm same)]
      exact first

theorem fillAll_filled (distinct : fields.names.Nodup) (before : fields.Filled found slots)
    {entries : List (String × Json)} {passed : List (FieldKey × Datum)}
    (done : fields.readers.fillAll false slots
        (entries.map (fun entry => (.name entry.1, .json entry.2))) left =
      .ok ((filled, passed), rest)) :
    fields.Filled (fun name => (found name).or (entries.lookup name)) filled := by
  induction entries generalizing found slots passed left rest with
  | nil =>
    cases done
    exact before.congr fun name _ => (Option.or_none).symm
  | cons entry entries ih =>
    obtain ⟨name, json⟩ := entry
    have next : ∀ other, (more found name json other).or (entries.lookup other) =
        (found other).or (((name, json) :: entries).lookup other) := by
      intro other
      unfold more
      rw [Option.or_assoc, Dict.lookup_entry]
      by_cases same : other = name
      · rw [if_pos same, if_pos same, Option.some_or]
      · rw [if_neg same, if_neg same, Option.none_or]
    rw [List.map_cons, fillAll] at done
    cases selects : fields.readers.fill false (.name name) (.json json) slots with
    | none =>
      rw [selects] at done
      obtain ⟨⟨later, others⟩, between, made, done⟩ := Read.bind_ok done
      cases done
      have unknown := not_mem_names_of_fill selects
      have kept : fields.Filled (more found name json) slots := by
        apply before.congr
        intro other member
        have unlike : other ≠ name := by
          rintro rfl
          exact unknown member
        exact (more_of_ne unlike).symm
      exact (ih kept made).congr fun other _ => next other
    | some reading =>
      rw [selects] at done
      obtain ⟨later, between, made, done⟩ := Read.bind_ok done
      exact (ih (fill_filled distinct before selects made) done).congr fun other _ => next other

theorem finish_cons {field : WireField α} {others : Fields WireField σ} {own : Option α}
    {slots : others.readers.Slots} {values : α × σ}
    (done : (Fields.cons field others).readers.finish
      ((own, slots) : Option α × others.readers.Slots) left = .ok (values, rest)) :
    ∃ value later between, own.or field.missing.value? = some value ∧
      others.readers.finish slots between = .ok (later, rest) ∧ values = (value, later) := by
  cases own with
  | some value =>
    have next : (Fields.cons field others).readers.finish
        ((some value, slots) : Option α × others.readers.Slots) =
      (do return (value, ← others.readers.finish slots) : Read (α × σ)) := rfl
    rw [next] at done
    obtain ⟨later, _, made, done⟩ := Read.bind_ok done
    cases done
    exact ⟨value, later, left, rfl, made, rfl⟩
  | none =>
    cases stands : field.missing.value? with
    | some value =>
      rw [finish_missing stands] at done
      obtain ⟨later, _, made, done⟩ := Read.bind_ok done
      cases done
      exact ⟨value, later, left, rfl, made, rfl⟩
    | none =>
      obtain ⟨⟨name, read, missing⟩, write⟩ := field
      cases missing with
      | refused => cases done
      | _ => cases stands

theorem finish_takes (before : fields.Filled found slots) {values : σ}
    (done : fields.readers.finish slots left = .ok (values, rest)) :
    fields.Takes found values := by
  induction fields generalizing left rest with
  | nil => trivial
  | cons field others ih =>
    obtain ⟨own, slots⟩ : Option _ × others.readers.Slots := slots
    obtain ⟨first, later⟩ := before
    obtain ⟨value, values, between, stands, made, rfl⟩ := finish_cons done
    refine ⟨?_, ih later made⟩
    cases here : found field.name with
    | none =>
      rw [here] at first
      cases first
      exact stands
    | some json =>
      rw [here] at first
      cases first with
      | some gives =>
        cases stands
        exact gives

end Filling

theorem ofList_takes {fields : Fields WireField σ} (distinct : fields.names.Nodup)
    {expected : String} {position left rest : Nat} {items : List Json} {values : σ}
    {surplus : List Datum}
    (done : fields.readers.ofList expected position (items.map .json) left =
      .ok ((values, surplus), rest)) :
    fields.Takes (fun name => items[fields.names.idxOf name]?) values := by
  induction fields generalizing items position left rest with
  | nil => trivial
  | cons field others ih =>
    cases items with
    | nil =>
      obtain ⟨⟨name, read, missing⟩, write⟩ := field
      cases missing with
      | stands value =>
        obtain ⟨_, _, chosen, done⟩ := Read.bind_ok done
        cases chosen
        obtain ⟨⟨values, _⟩, _, made, done⟩ := Read.bind_ok done
        cases done
        have later : others.Takes (fun name => ([] : List Json)[others.names.idxOf name]?) values :=
          ih (List.nodup_cons.1 distinct).2 made
        exact ⟨rfl, later.congr fun _ _ => rfl⟩
      | _ => cases done
    | cons item items =>
      obtain ⟨value, between, chosen, done⟩ := Read.bind_ok done
      obtain ⟨⟨values, _⟩, _, made, done⟩ := Read.bind_ok done
      cases done
      have first : (Fields.cons field others).names.idxOf field.name = 0 := List.idxOf_cons_self
      refine ⟨?_, (ih (List.nodup_cons.1 distinct).2 made).congr fun name member => ?_⟩
      · dsimp only
        rw [first]
        exact ⟨_, _, chosen⟩
      · have unlike : field.name ≠ name := by
          rintro rfl
          exact (List.nodup_cons.1 distinct).1 member
        rw [names, List.idxOf_cons_ne _ unlike, List.getElem?_cons_succ]

/-- A record takes each field from where it stands, in an object or in an array. -/
theorem takes_of_gives {fields : Fields WireField σ} (distinct : fields.names.Nodup)
    {recordName : String} {json : Json} {values : σ}
    (gives : (Reader.fields recordName fields.readers).Gives json values) :
    fields.Takes (json.field? fields.names) values := by
  obtain ⟨left, rest, done⟩ := gives
  unfold Reader.fields at done
  obtain ⟨datum, _, forced, done⟩ := Read.bind_ok done
  cases forced
  obtain ⟨form, _, shaped, done⟩ := Read.bind_ok done
  cases json with
  | object entries =>
    cases shaped
    obtain ⟨⟨slots, passed⟩, _, filled, done⟩ := Read.bind_ok done
    have complete := fillAll_filled distinct (filled_noSlots fields) filled
    exact (finish_takes complete done).congr fun name _ => Option.none_or
  | array items =>
    cases shaped
    obtain ⟨⟨taken, surplus⟩, _, read, done⟩ := Read.bind_ok done
    dsimp only at done
    split at done
    · cases done
      exact ofList_takes distinct read
    · cases done
  | _ => cases shaped

end Fields

/-- The field is written as what it was read from, where that is of the kind: null is left out, and
so is a field that was not there. -/
structure WireField.Preserves (field : WireField α) (kind : Json → Prop) : Prop where
  read : ∀ json value, kind json → field.read.Gives json value →
    (field.write value).map Wire.toJson = (some json).filter (· ≠ .null)
  missing : ∀ value, field.missing.value? = some value → field.write value = none

namespace WireField

variable {name : String} {codec : Codec α} {kind : Json → Prop}

theorem filter_toJson (wire : Wire) : (some wire.toJson).filter (· ≠ .null) = some wire.toJson := by
  simp [Option.filter, Wire.toJson_ne_null]

theorem required_preserves (preserves : codec.Preserves kind) :
    (WireField.required name codec).Preserves kind where
  read json value kinds gives := by
    have same : (codec.write value).toJson = json := preserves json value kinds gives
    rw [← same, filter_toJson]
    rfl
  missing value stands := by
    cases stands

theorem option_preserves (preserves : codec.Preserves kind) {field : WireField (Option α)}
    (reads : field.read = Reader.option codec.read) (writes : field.write = Option.map codec.write)
    (stands : field.missing.value? = some none) : field.Preserves kind where
  read json value kinds gives := by
    rw [reads] at gives
    rw [writes]
    rcases Reader.option_gives gives with ⟨rfl, rfl⟩ | ⟨_, given, rfl, made⟩
    · rfl
    · rw [← preserves json given kinds made, filter_toJson]
      rfl
  missing value absent := by
    rw [stands] at absent
    cases absent
    rw [writes]
    rfl

end WireField

namespace Fields

variable {σ : Type}

def Preserve (kind : String → Json → Prop) : {σ : Type} → Fields WireField σ → Prop
  | _, .nil => True
  | _, .cons field rest => field.Preserves (kind field.name) ∧ rest.Preserve kind

theorem Preserve.nil {kind : String → Json → Prop} :
    (Fields.nil : Fields WireField Unit).Preserve kind := trivial

theorem Preserve.cons {kind : String → Json → Prop} {field : WireField α}
    {rest : Fields WireField σ} (first : field.Preserves (kind field.name))
    (others : rest.Preserve kind) : (Fields.cons field rest).Preserve kind :=
  ⟨first, others⟩

theorem lookup_write_eq_none {fields : Fields WireField σ} {name : String}
    (unknown : name ∉ fields.names) (values : σ) : (fields.write values).lookup name = none := by
  rw [List.lookup_eq_none_iff]
  intro entry member
  have unlike : name ≠ entry.1 := by
    rintro rfl
    exact unknown (mem_names_of_mem_write member)
  simpa using unlike

theorem lookup_write_cons {field : WireField α} {rest : Fields WireField σ}
    (distinct : (Fields.cons field rest).names.Nodup) (value : α) (others : σ) (name : String) :
    ((Fields.cons field rest).write (value, others)).lookup name =
      if name = field.name then field.write value else (rest.write others).lookup name := by
  have fresh : (rest.write others).lookup field.name = none :=
    lookup_write_eq_none (List.nodup_cons.1 distinct).1 others
  cases given : field.write value with
  | some wire =>
    rw [write, given]
    exact Dict.lookup_entry name field.name wire _
  | none =>
    rw [write, given]
    by_cases same : name = field.name
    · rw [if_pos same, same]
      exact fresh
    · exact (if_neg same).symm

theorem lookup_written {fields : Fields WireField σ} {kind : String → Json → Prop}
    (preserve : fields.Preserve kind) (distinct : fields.names.Nodup)
    {found : String → Option Json} (kinds : ∀ name json, found name = some json → kind name json)
    {values : σ} (takes : fields.Takes found values) {name : String} (known : name ∈ fields.names) :
    ((fields.write values).lookup name).map Wire.toJson = (found name).filter (· ≠ .null) := by
  induction fields with
  | nil => cases known
  | cons field rest ih =>
    obtain ⟨value, others⟩ := values
    obtain ⟨first, later⟩ := takes
    rw [lookup_write_cons distinct]
    by_cases same : name = field.name
    · subst same
      rw [if_pos rfl]
      cases here : found field.name with
      | some json =>
        rw [here] at first
        exact preserve.1.read json value (kinds _ json here) first
      | none =>
        rw [here] at first
        rw [preserve.1.missing value first]
        rfl
    · rw [if_neg same]
      exact ih preserve.2 (List.nodup_cons.1 distinct).2 later
        ((List.mem_cons.1 known).resolve_left same)

end Fields

/-! ### What stands in a written record -/

namespace Json

def under? (json : Json) (key : String) : Option Json :=
  match json with
  | .object entries => entries.lookup key
  | _ => none

theorem under?_record {entries : List (String × Wire)} (distinct : (entries.map Prod.fst).Nodup)
    (key : String) : (Wire.record entries).toJson.under? key =
      (entries.lookup key).map Wire.toJson := by
  have keys : ((Wire.fieldsToJson entries).map Prod.fst).Nodup := by
    rw [Wire.fieldsToJson_eq, List.map_map]
    exact distinct
  rw [Fields.toJson_record]
  change (SortedDict.ofList (Wire.fieldsToJson entries)).get? key = _
  rw [SortedDict.get?_ofList_of_nodup keys, Wire.fieldsToJson_eq]
  exact Dict.lookup_map Wire.toJson entries key

theorem under?_of_mem {entries : List (String × Wire)} (distinct : (entries.map Prod.fst).Nodup)
    {key : String} {wire : Wire} (member : (key, wire) ∈ entries) :
    (Wire.record entries).toJson.under? key = some wire.toJson := by
  rw [under?_record distinct, Dict.lookup_of_mem distinct member]
  rfl

theorem under?_sorted (item : Codec α) (dict : SortedDict α) (key : String) :
    ((Codec.sorted item).write dict).toJson.under? key =
      (dict.get? key).map (fun value => (item.write value).toJson) := by
  have keys : ((dict.entries.map (fun entry => (entry.1, item.write entry.2))).map
      Prod.fst).Nodup := by
    rw [List.map_map]
    exact SortedDict.nodup_of_sorted dict.sorted
  refine (under?_record keys key).trans ?_
  rw [Dict.lookup_map, Option.map_map]
  rfl

/-- What stands at the end of a path of keys. -/
def at? : Json → List String → Option Json
  | json, [] => some json
  | json, key :: path => (json.under? key).bind (fun inner => inner.at? path)

end Json

namespace Codec

variable {σ : Type} {fields : Fields WireField σ} {kind : String → Json → Prop}

/-- An object with no other entries than these, each of the kind for its name. -/
def IsObjectOf (names : List String) (kind : String → Json → Prop) (json : Json) : Prop :=
  ∃ object : SortedDict Json, json = .object object.entries ∧
    ∀ name value, object.get? name = some value → name ∈ names ∧ kind name value

/-- A record that writes all its fields is written as the object it was read from. -/
theorem record_preserves (preserve : fields.Preserve kind) (distinct : fields.names.Nodup)
    (complete : ∀ values, (fields.write values).map Prod.fst = fields.names) {recordName : String}
    {build : σ → α} {parts : α → σ} (rebuilds : ∀ values, parts (build values) = values) :
    (Codec.record recordName fields build parts).Preserves (IsObjectOf fields.names kind) := by
  rintro json value ⟨object, rfl, only⟩ gives
  obtain ⟨values, given, rfl⟩ := Reader.map_gives gives
  have takes := Fields.takes_of_gives distinct given
  have keys : ((fields.write values).map Prod.fst).Nodup := by
    rw [complete]
    exact distinct
  change (Wire.record (fields.write (parts (build values)))).toJson = _
  rw [rebuilds, Fields.toJson_record]
  refine congrArg (fun dict : SortedDict Json => Json.object dict.entries)
    (SortedDict.eq_of_get? fun name => ?_)
  have written := Json.under?_record keys name
  rw [Fields.toJson_record] at written
  refine Eq.trans written ?_
  by_cases known : name ∈ fields.names
  · have kinds : ∀ name json, object.entries.lookup name = some json → kind name json :=
      fun name json found => (only name json found).2
    have same := Fields.lookup_written preserve distinct kinds takes known
    obtain ⟨entry, member, rfl⟩ := List.mem_map.1 (complete values ▸ known)
    rw [Dict.lookup_of_mem keys member] at same ⊢
    exact (Option.filter_eq_some_iff.1 same.symm).1.symm
  · rw [Fields.lookup_write_eq_none known]
    cases found : object.get? name with
    | none => rfl
    | some json => exact absurd (only name json found).1 known

end Codec

end ApiManifest
