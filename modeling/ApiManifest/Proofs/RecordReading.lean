import ApiManifest.OpenApi.Reading
import Mathlib

/-!
Readings that follow no references: each of them either gives one value, whatever number of
references may be followed, or fails. What a record reads is put together from what its fields
read: a field takes the only entry that it is selected by, and stands for its default where there
is none.
-/

namespace ApiManifest

variable {α β : Type}

namespace Read

/-- Gives this value and follows no reference. -/
def Always (reading : Read α) (value : α) : Prop :=
  ∀ left, reading left = .ok (value, left)

def Never (reading : Read α) : Prop :=
  ∀ left, ∃ error, reading left = .error error

def Settled (reading : Read α) : Prop :=
  (∃ value, Always reading value) ∨ Never reading

theorem Always.unique {reading : Read α} {first second : α} (one : Always reading first)
    (other : Always reading second) : first = second := by
  have same := (one 0).symm.trans (other 0)
  rw [Except.ok.injEq, Prod.mk.injEq] at same
  exact same.1

theorem Always.not_never {reading : Read α} {value : α} (always : Always reading value) :
    ¬ Never reading := by
  intro never
  obtain ⟨error, failed⟩ := never 0
  rw [always 0] at failed
  cases failed

theorem always_pure (value : α) : Always (pure value) value := fun _ => rfl

theorem never_refuse (error : DecodeError) : Never (refuse error : Read α) :=
  fun _ => ⟨error, rfl⟩

theorem always_pure_iff {first second : α} :
    Always (pure first : Read α) second ↔ first = second :=
  ⟨(always_pure first).unique, fun same => same ▸ always_pure first⟩

theorem not_always_refuse (error : DecodeError) (value : α) :
    ¬ Always (refuse error) value :=
  fun always => always.not_never (never_refuse error)

theorem settled_pure (value : α) : Settled (pure value) := .inl ⟨value, always_pure value⟩

theorem settled_refuse (error : DecodeError) : Settled (refuse error : Read α) :=
  .inr (never_refuse error)

theorem bind_apply (first : Read α) (next : α → Read β) (left : Nat) :
    (first >>= next) left = (first left >>= fun step => next step.1 step.2) := rfl

theorem Always.bind_eq {first : Read α} {value : α} (always : Always first value)
    (next : α → Read β) (left : Nat) : (first >>= next) left = next value left := by
  rw [bind_apply, always left]
  rfl

theorem Always.bind {first : Read α} {next : α → Read β} {value : α} {result : β}
    (always : Always first value) (then_ : Always (next value) result) :
    Always (first >>= next) result := by
  intro left
  rw [always.bind_eq, then_ left]

theorem Always.map {reading : Read α} {value : α} (always : Always reading value)
    (change : α → β) : Always (reading >>= fun value => pure (change value)) (change value) :=
  always.bind (always_pure (change value))

theorem Never.bind {first : Read α} (never : Never first) (next : α → Read β) :
    Never (first >>= next) := by
  intro left
  obtain ⟨error, failed⟩ := never left
  refine ⟨error, ?_⟩
  rw [bind_apply, failed]
  rfl

theorem Always.bind_never {first : Read α} {next : α → Read β} {value : α}
    (always : Always first value) (never : Never (next value)) : Never (first >>= next) := by
  intro left
  rw [always.bind_eq]
  exact never left

theorem Settled.bind_given {first : Read α} {next : α → Read β} (settled : Settled first)
    (then_ : ∀ value, Always first value → Settled (next value)) : Settled (first >>= next) := by
  rcases settled with ⟨value, always⟩ | never
  · rcases then_ value always with ⟨result, later⟩ | later
    · exact .inl ⟨result, always.bind later⟩
    · exact .inr (always.bind_never later)
  · exact .inr (never.bind next)

theorem Settled.bind {first : Read α} {next : α → Read β} (settled : Settled first)
    (then_ : ∀ value, Settled (next value)) : Settled (first >>= next) :=
  settled.bind_given (fun value _ => then_ value)

theorem always_bind_iff {first : Read α} {next : α → Read β} {result : β}
    (settled : Settled first) : Always (first >>= next) result ↔
      ∃ value, Always first value ∧ Always (next value) result := by
  constructor
  · intro always
    rcases settled with ⟨value, first_⟩ | never
    · refine ⟨value, first_, ?_⟩
      intro left
      rw [← first_.bind_eq next left, always left]
    · exact absurd (never.bind next) always.not_never
  · rintro ⟨value, first_, later⟩
    exact first_.bind later

theorem always_orElse_iff {first second : Read α} {result : α} (settled : Settled first) :
    Always (orElse first second) result ↔
      Always first result ∨ (Never first ∧ Always second result) := by
  rcases settled with ⟨value, always⟩ | never
  · have same : ∀ left, orElse first second left = first left := by
      intro left
      rw [orElse, always left]
    have iff : Always (orElse first second) result ↔ Always first result := by
      unfold Always
      simp only [same]
    rw [iff]
    constructor
    · exact .inl
    · rintro (done | ⟨never, -⟩)
      · exact done
      · exact absurd never always.not_never
  · have same : ∀ left, orElse first second left = second left := by
      intro left
      obtain ⟨error, failed⟩ := never left
      rw [orElse, failed]
    have iff : Always (orElse first second) result ↔ Always second result := by
      unfold Always
      simp only [same]
    rw [iff]
    constructor
    · exact fun done => .inr ⟨never, done⟩
    · rintro (done | ⟨-, done⟩)
      · exact absurd never done.not_never
      · exact done

theorem always_mapM {step : α → Read β} {items : List α} {values : List β}
    (each : List.Forall₂ (fun item value => Always (step item) value) items values) :
    Always (items.mapM step) values := by
  induction each with
  | nil => exact always_pure _
  | cons first _ ih =>
    rw [List.mapM_cons]
    exact first.bind (ih.bind (always_pure _))

theorem settled_mapM {step : α → Read β} {items : List α}
    (each : ∀ item ∈ items, Settled (step item)) : Settled (items.mapM step) := by
  induction items with
  | nil => exact settled_pure _
  | cons item items ih =>
    rw [List.mapM_cons]
    have later := ih (fun other member => each other (List.mem_cons_of_mem item member))
    exact (each item (by simp)).bind (fun _ => later.bind (fun _ => settled_pure _))

theorem always_mapM_iff {step : α → Read β} {items : List α} {values : List β}
    (each : ∀ item ∈ items, Settled (step item)) : Always (items.mapM step) values ↔
      List.Forall₂ (fun item value => Always (step item) value) items values := by
  refine ⟨fun always => ?_, always_mapM⟩
  induction items generalizing values with
  | nil =>
    cases (always_pure ([] : List β)).unique always
    exact .nil
  | cons item items ih =>
    have others := fun other member => each other (List.mem_cons_of_mem item member)
    rw [List.mapM_cons, always_bind_iff (each item (by simp))] at always
    obtain ⟨value, first, always⟩ := always
    rw [always_bind_iff (settled_mapM others)] at always
    obtain ⟨later, rest, always⟩ := always
    rw [← (always_pure _).unique always]
    exact .cons first (ih others rest)

/-- The steps may be stated by any relation that says of these items what they give. -/
theorem always_mapM_iff_relation {step : α → Read β} {items : List α} {values : List β}
    {relation : α → β → Prop} (each : ∀ item ∈ items, Settled (step item))
    (same : ∀ item ∈ items, ∀ value, Always (step item) value ↔ relation item value) :
    Always (items.mapM step) values ↔ List.Forall₂ relation items values := by
  have self := fun item (member : item ∈ items) => member
  rw [always_mapM_iff each]
  constructor
  · intro steps
    exact ((List.forall₂_and_left items values).2 ⟨self, steps⟩).imp
      (fun item value both => (same item both.1 value).1 both.2)
  · intro related
    exact ((List.forall₂_and_left items values).2 ⟨self, related⟩).imp
      (fun item value both => (same item both.1 value).2 both.2)

end Read

open Read (Always Never Settled)

namespace Field

def own (field : Field α) (entries : List (FieldKey × Datum)) : List Datum :=
  entries.filterMap (fun entry =>
    if Fields.selectsFirst entry.1 field.name then some entry.2 else none)

/-- The entries that the fields after this one see. -/
def others (field : Field α) (entries : List (FieldKey × Datum)) : List (FieldKey × Datum) :=
  entries.filterMap (fun entry =>
    if Fields.selectsFirst entry.1 field.name then none
    else some (Fields.nextKey entry.1, entry.2))

def Fills (field : Field α) (slot : Option α) (data : List Datum) (filled : Option α) : Prop :=
  (data = [] ∧ filled = slot) ∨
    ∃ datum value, data = [datum] ∧ slot = none ∧ Always (field.read datum) value ∧
      filled = some value

def Holds (field : Field α) (data : List Datum) (value : α) : Prop :=
  (data = [] ∧ field.missing.value? = some value) ∨
    ∃ datum, data = [datum] ∧ Always (field.read datum) value

theorem holds_perm {field : Field α} {data other : List Datum} {value : α}
    (same : data.Perm other) : field.Holds data value ↔ field.Holds other value := by
  unfold Holds
  constructor
  · rintro (⟨rfl, stands⟩ | ⟨datum, rfl, always⟩)
    · exact .inl ⟨List.nil_perm.1 same, stands⟩
    · exact .inr ⟨datum, (List.singleton_perm.1 same).symm, always⟩
  · rintro (⟨rfl, stands⟩ | ⟨datum, rfl, always⟩)
    · exact .inl ⟨List.perm_nil.1 same, stands⟩
    · exact .inr ⟨datum, List.perm_singleton.1 same, always⟩

theorem length_le_of_holds {field : Field α} {data : List Datum} {value : α}
    (holds : field.Holds data value) : data.length ≤ 1 := by
  rcases holds with ⟨rfl, -⟩ | ⟨datum, rfl, -⟩ <;> simp

theorem always_of_holds {field : Field α} {datum : Datum} {value : α}
    (holds : field.Holds [datum] value) : Always (field.read datum) value := by
  rcases holds with ⟨none_, -⟩ | ⟨other, only, always⟩
  · cases none_
  · cases only
    exact always

theorem exists_of_required {name : String} {read : Reader α} {data : List Datum} {value : α}
    (holds : (Field.required name read).Holds data value) : ∃ datum, data = [datum] := by
  rcases holds with ⟨-, stands⟩ | ⟨datum, only, -⟩
  · cases stands
  · exact ⟨datum, only⟩

theorem holds_congr {field : Field α} {data other : List Datum} {value : α}
    (alike : List.Forall₂ (fun datum other =>
      Always (field.read datum) value ↔ Always (field.read other) value) data other) :
    field.Holds data value ↔ field.Holds other value := by
  unfold Holds
  cases alike with
  | nil => simp
  | cons first rest =>
    cases rest with
    | nil => simp [first]
    | cons second rest => simp

section Entries

variable {field : Field α} {key : FieldKey} {datum : Datum} {entries : List (FieldKey × Datum)}

theorem own_selected (selected : Fields.selectsFirst key field.name) :
    field.own ((key, datum) :: entries) = datum :: field.own entries := by
  simp [own, selected]

theorem own_passed (passed : Fields.selectsFirst key field.name = false) :
    field.own ((key, datum) :: entries) = field.own entries := by
  simp [own, passed]

theorem others_selected (selected : Fields.selectsFirst key field.name) :
    field.others ((key, datum) :: entries) = field.others entries := by
  simp [others, selected]

theorem others_passed (passed : Fields.selectsFirst key field.name = false) :
    field.others ((key, datum) :: entries)
      = (Fields.nextKey key, datum) :: field.others entries := by
  simp [others, passed]

end Entries

end Field

namespace Fields

variable {σ : Type}

def Fills : {σ : Type} → (fields : Fields Field σ) → fields.Slots →
    List (FieldKey × Datum) → fields.Slots → Prop
  | _, .nil, _, _, _ => True
  | _, .cons (α := α) field rest, slots, entries, filled =>
    let slots : Option α × rest.Slots := slots
    let filled : Option α × rest.Slots := filled
    field.Fills slots.1 (field.own entries) filled.1 ∧
      rest.Fills slots.2 (field.others entries) filled.2

def Holds : {σ : Type} → Fields Field σ → List (FieldKey × Datum) → σ → Prop
  | _, .nil, _, _ => True
  | _, .cons field rest, entries, (value, values) =>
    field.Holds (field.own entries) value ∧ rest.Holds (field.others entries) values

/-- Each field would settle what it reads there. -/
def SettledOn : {σ : Type} → Fields Field σ → Datum → Prop
  | _, .nil, _ => True
  | _, .cons field rest, datum => Settled (field.read datum) ∧ rest.SettledOn datum

section Filling

variable {fields : Fields Field σ} {slots filled : fields.Slots} {key : FieldKey} {datum : Datum}
  {entries : List (FieldKey × Datum)}

theorem fill_empty {field : Field α} {rest : Fields Field σ}
    (selected : selectsFirst key field.name) (slots : rest.Slots) :
    (Fields.cons field rest).fill false key datum ((none, slots) : Option α × rest.Slots) =
      some (field.read datum >>= fun value =>
        pure ((some value, slots) : Option α × rest.Slots)) :=
  if_pos selected

theorem fill_again {field : Field α} {rest : Fields Field σ}
    (selected : selectsFirst key field.name) (value : α) (slots : rest.Slots) :
    ∃ next : Unit → Read (Option α × rest.Slots),
      (Fields.cons field rest).fill false key datum ((some value, slots) : Option α × rest.Slots) =
        some (Read.refuse (.repeatedField field.name) >>= next) :=
  ⟨_, if_pos selected⟩

theorem fill_later {field : Field α} {rest : Fields Field σ}
    (passed : selectsFirst key field.name = false) (slots : Option α × rest.Slots) :
    (Fields.cons field rest).fill false key datum slots =
      (rest.fill false (nextKey key) datum slots.2).map (fun reading =>
        reading >>= fun later => pure ((slots.1, later) : Option α × rest.Slots)) :=
  if_neg (by rw [passed]; exact Bool.false_ne_true)

theorem step_of_fills (fills : fields.Fills slots ((key, datum) :: entries) filled) :
    (fields.fill false key datum slots = none ∧ fields.Fills slots entries filled) ∨
      ∃ reading between, fields.fill false key datum slots = some reading ∧
        Always reading between ∧ fields.Fills between entries filled := by
  induction fields generalizing key entries with
  | nil => exact .inl ⟨rfl, trivial⟩
  | @cons α σ field rest ih =>
    obtain ⟨slot, slots⟩ : Option α × rest.Slots := slots
    obtain ⟨own, filled⟩ : Option α × rest.Slots := filled
    obtain ⟨first, later⟩ := fills
    cases selected : selectsFirst key field.name with
    | true =>
      right
      change field.Fills slot (field.own _) own at first
      change rest.Fills slots (field.others _) filled at later
      rw [Field.own_selected selected] at first
      rw [Field.others_selected selected] at later
      rcases first with ⟨empty, -⟩ | ⟨taken, value, only, rfl, always, rfl⟩
      · cases empty
      · obtain ⟨rfl, none_⟩ := List.cons.inj only
        exact ⟨_, ((some value, slots) : Option α × rest.Slots), fill_empty selected slots,
          always.map _, .inl ⟨none_, rfl⟩, later⟩
    | false =>
      change field.Fills slot (field.own _) own at first
      change rest.Fills slots (field.others _) filled at later
      rw [Field.own_passed selected] at first
      rw [Field.others_passed selected] at later
      rcases ih later with ⟨none_, later⟩ | ⟨reading, between, found, always, later⟩
      · left
        refine ⟨?_, first, later⟩
        rw [fill_later selected]
        exact Option.map_eq_none_iff.2 none_
      · right
        refine ⟨_, ((slot, between) : Option α × rest.Slots), ?_, always.map _, first, later⟩
        rw [fill_later selected]
        exact Option.map_eq_some_iff.2 ⟨reading, found, rfl⟩

theorem always_fillAll (fills : fields.Fills slots entries filled) :
    ∃ passed, Always (fields.fillAll false slots entries) (filled, passed) := by
  induction entries generalizing slots with
  | nil =>
    have same : filled = slots := by
      induction fields with
      | nil => rfl
      | @cons α σ field rest ih =>
        obtain ⟨slot, slots⟩ : Option α × rest.Slots := slots
        obtain ⟨own, filled⟩ : Option α × rest.Slots := filled
        obtain ⟨first, later⟩ := fills
        rcases first with ⟨-, rfl⟩ | ⟨datum, value, only, -⟩
        · exact congrArg (Prod.mk _) (ih later)
        · cases only
    exact ⟨[], same ▸ Read.always_pure _⟩
  | cons entry entries ih =>
    obtain ⟨key, datum⟩ := entry
    rcases step_of_fills fills with ⟨none_, later⟩ | ⟨reading, between, found, always, later⟩
    · obtain ⟨passed, done⟩ := ih later
      refine ⟨(key, datum) :: passed, ?_⟩
      rw [fillAll, none_]
      exact done.bind (Read.always_pure _)
    · obtain ⟨passed, done⟩ := ih later
      refine ⟨passed, ?_⟩
      rw [fillAll, found]
      exact always.bind done

theorem settled_fill {reading : Read fields.Slots} (settled : fields.SettledOn datum)
    (found : fields.fill false key datum slots = some reading) : Settled reading := by
  induction fields generalizing key with
  | nil => cases found
  | @cons α σ field rest ih =>
    obtain ⟨slot, slots⟩ : Option α × rest.Slots := slots
    cases selected : selectsFirst key field.name with
    | true =>
      cases slot with
      | none =>
        cases Option.some.inj ((fill_empty selected slots).symm.trans found)
        exact settled.1.bind (fun _ => Read.settled_pure _)
      | some value =>
        obtain ⟨next, refused⟩ := @fill_again _ _ key datum field rest selected value slots
        cases Option.some.inj (refused.symm.trans found)
        exact .inr ((Read.never_refuse _).bind _)
    | false =>
      obtain ⟨inner, chosen, rfl⟩ := Option.map_eq_some_iff.1
        ((fill_later selected (slot, slots)).symm.trans found)
      exact (ih settled.2 chosen).bind (fun _ => Read.settled_pure _)

theorem settled_fillAll (settled : ∀ entry ∈ entries, fields.SettledOn entry.2) :
    Settled (fields.fillAll false slots entries) := by
  induction entries generalizing slots with
  | nil => exact Read.settled_pure _
  | cons entry entries ih =>
    obtain ⟨key, datum⟩ := entry
    have later := fun other member => settled other (List.mem_cons_of_mem (key, datum) member)
    rw [fillAll]
    cases found : fields.fill false key datum slots with
    | none => exact (ih later).bind (fun _ => Read.settled_pure _)
    | some reading =>
      exact (settled_fill (settled (key, datum) (by simp)) found).bind (fun _ => ih later)

theorem fills_of_passed (none_ : fields.fill false key datum slots = none)
    (fills : fields.Fills slots entries filled) :
    fields.Fills slots ((key, datum) :: entries) filled := by
  induction fields generalizing key entries with
  | nil => trivial
  | @cons α σ field rest ih =>
    obtain ⟨slot, slots⟩ : Option α × rest.Slots := slots
    obtain ⟨own, filled⟩ : Option α × rest.Slots := filled
    obtain ⟨first, later⟩ := fills
    cases selected : selectsFirst key field.name with
    | true =>
      cases slot with
      | none => cases (fill_empty selected slots).symm.trans none_
      | some value =>
        obtain ⟨next, refused⟩ := @fill_again _ _ key datum field rest selected value slots
        cases refused.symm.trans none_
    | false =>
      have none_ := Option.map_eq_none_iff.1
        ((fill_later selected (slot, slots)).symm.trans none_)
      change field.Fills slot (field.own _) own ∧ rest.Fills slots (field.others _) filled
      rw [Field.own_passed selected, Field.others_passed selected]
      exact ⟨first, ih none_ later⟩

theorem fills_of_taken {reading : Read fields.Slots} {between : fields.Slots}
    (settled : fields.SettledOn datum)
    (found : fields.fill false key datum slots = some reading) (always : Always reading between)
    (fills : fields.Fills between entries filled) :
    fields.Fills slots ((key, datum) :: entries) filled := by
  induction fields generalizing key entries with
  | nil => cases found
  | @cons α σ field rest ih =>
    obtain ⟨slot, slots⟩ : Option α × rest.Slots := slots
    obtain ⟨own, filled⟩ : Option α × rest.Slots := filled
    change field.Fills slot (field.own _) own ∧ rest.Fills slots (field.others _) filled
    cases selected : selectsFirst key field.name with
    | true =>
      rw [Field.own_selected selected, Field.others_selected selected]
      cases slot with
      | none =>
        cases Option.some.inj ((fill_empty selected slots).symm.trans found)
        obtain ⟨value, read, made⟩ := (Read.always_bind_iff settled.1).1 always
        cases (Read.always_pure _).unique made
        obtain ⟨first, later⟩ := fills
        rcases first with ⟨empty, same⟩ | ⟨_, _, _, full, _⟩
        · exact ⟨.inr ⟨datum, value, by rw [empty], rfl, read, same⟩, later⟩
        · cases full
      | some value =>
        obtain ⟨next, refused⟩ := @fill_again _ _ key datum field rest selected value slots
        cases Option.some.inj (refused.symm.trans found)
        exact absurd ((Read.never_refuse _).bind _) always.not_never
    | false =>
      rw [Field.own_passed selected, Field.others_passed selected]
      obtain ⟨inner, chosen, rfl⟩ := Option.map_eq_some_iff.1
        ((fill_later selected (slot, slots)).symm.trans found)
      obtain ⟨between, read, made⟩ :=
        (Read.always_bind_iff (settled_fill settled.2 chosen)).1 always
      cases (Read.always_pure _).unique made
      exact ⟨fills.1, ih settled.2 chosen read fills.2⟩

theorem fills_of_fillAll {passed : List (FieldKey × Datum)}
    (settled : ∀ entry ∈ entries, fields.SettledOn entry.2)
    (always : Always (fields.fillAll false slots entries) (filled, passed)) :
    fields.Fills slots entries filled := by
  induction entries generalizing slots passed with
  | nil =>
    cases always.unique (Read.always_pure (_, []))
    clear always
    induction fields with
    | nil => trivial
    | @cons α σ field rest ih =>
      obtain ⟨slot, filled⟩ : Option α × rest.Slots := filled
      exact ⟨.inl ⟨rfl, rfl⟩, ih (by simp)⟩
  | cons entry entries ih =>
    obtain ⟨key, datum⟩ := entry
    have later := fun other member => settled other (List.mem_cons_of_mem (key, datum) member)
    rw [fillAll] at always
    cases found : fields.fill false key datum slots with
    | none =>
      rw [found, Read.always_bind_iff (settled_fillAll later)] at always
      obtain ⟨⟨own, others⟩, read, made⟩ := always
      cases (Read.always_pure _).unique made
      exact fills_of_passed found (ih later read)
    | some reading =>
      have here := settled (key, datum) (by simp)
      rw [found, Read.always_bind_iff (settled_fill here found)] at always
      obtain ⟨between, read, always⟩ := always
      exact fills_of_taken here found read (ih later always)

end Filling

section Finishing

variable {fields : Fields Field σ} {entries : List (FieldKey × Datum)} {values : σ}

theorem finish_filled {field : Field α} {rest : Fields Field σ} (value : α) (slots : rest.Slots) :
    (Fields.cons field rest).finish ((some value, slots) : Option α × rest.Slots) =
      rest.finish slots >>= fun values => pure (value, values) := rfl

theorem finish_default {field : Field α} {rest : Fields Field σ} {value : α}
    (stands : field.missing.value? = some value) (slots : rest.Slots) :
    (Fields.cons field rest).finish ((none, slots) : Option α × rest.Slots) =
      rest.finish slots >>= fun values => pure (value, values) := by
  obtain ⟨name, read, missing⟩ := field
  cases missing with
  | refused => cases stands
  | unlessListed own =>
    cases stands
    rfl
  | stands own =>
    cases stands
    rfl

theorem never_finish {field : Field α} {rest : Fields Field σ}
    (refused : field.missing.value? = none) (slots : rest.Slots) :
    Never ((Fields.cons field rest).finish ((none, slots) : Option α × rest.Slots)) := by
  obtain ⟨name, read, missing⟩ := field
  cases missing with
  | refused => exact fun left => ⟨_, rfl⟩
  | unlessListed own => cases refused
  | stands own => cases refused

theorem settled_finish (slots : fields.Slots) : Settled (fields.finish slots) := by
  induction fields with
  | nil => exact Read.settled_pure ()
  | @cons α σ field rest ih =>
    obtain ⟨slot, slots⟩ : Option α × rest.Slots := slots
    have more := fun value : α =>
      (ih slots).bind (fun values => Read.settled_pure (value, values))
    cases slot with
    | some value =>
      rw [finish_filled]
      exact more value
    | none =>
      cases stands : field.missing.value? with
      | some value =>
        rw [finish_default stands]
        exact more value
      | none => exact .inr (never_finish stands slots)

theorem exists_fills (holds : fields.Holds entries values) :
    ∃ filled, fields.Fills fields.noSlots entries filled ∧
      Always (fields.finish filled) values := by
  induction fields generalizing entries with
  | nil => exact ⟨(), trivial, Read.always_pure ()⟩
  | @cons α σ field rest ih =>
    obtain ⟨value, values⟩ := values
    obtain ⟨first, later⟩ := holds
    obtain ⟨filled, fills, finished⟩ := ih later
    rcases first with ⟨empty, stands⟩ | ⟨datum, only, always⟩
    · refine ⟨((none, filled) : Option α × rest.Slots), ⟨.inl ⟨empty, rfl⟩, fills⟩, ?_⟩
      rw [finish_default stands]
      exact finished.map _
    · refine ⟨((some value, filled) : Option α × rest.Slots),
        ⟨.inr ⟨datum, value, only, rfl, always, rfl⟩, fills⟩, ?_⟩
      rw [finish_filled]
      exact finished.map _

theorem holds_of_fills {filled : fields.Slots}
    (fills : fields.Fills fields.noSlots entries filled)
    (finished : Always (fields.finish filled) values) : fields.Holds entries values := by
  induction fields generalizing entries with
  | nil => trivial
  | @cons α σ field rest ih =>
    obtain ⟨own, filled⟩ : Option α × rest.Slots := filled
    obtain ⟨first, later⟩ := fills
    have settled := settled_finish filled
    rcases first with ⟨empty, rfl⟩ | ⟨datum, value, only, -, always, rfl⟩
    · cases stands : field.missing.value? with
      | none => exact absurd (never_finish stands filled) finished.not_never
      | some value =>
        change Always ((Fields.cons field rest).finish
          ((none, filled) : Option α × rest.Slots)) values at finished
        rw [finish_default stands, Read.always_bind_iff settled] at finished
        obtain ⟨values, finished, made⟩ := finished
        cases (Read.always_pure _).unique made
        exact ⟨.inl ⟨empty, stands⟩, ih later finished⟩
    · rw [finish_filled, Read.always_bind_iff settled] at finished
      obtain ⟨values, finished, made⟩ := finished
      cases (Read.always_pure _).unique made
      exact ⟨.inr ⟨datum, only, always⟩, ih later finished⟩

def readNamed (fields : Fields Field σ) (entries : List (FieldKey × Datum)) : Read σ :=
  fields.fillAll false fields.noSlots entries >>= fun found => fields.finish found.1

theorem always_readNamed (holds : fields.Holds entries values) :
    Always (fields.readNamed entries) values := by
  obtain ⟨filled, fills, finished⟩ := exists_fills holds
  obtain ⟨passed, done⟩ := always_fillAll fills
  exact done.bind finished

theorem settled_readNamed (settled : ∀ entry ∈ entries, fields.SettledOn entry.2) :
    Settled (fields.readNamed entries) :=
  (settled_fillAll settled).bind (fun _ => settled_finish _)

/-- A record is read with these values exactly if its fields have them. -/
theorem always_readNamed_iff (settled : ∀ entry ∈ entries, fields.SettledOn entry.2) :
    Always (fields.readNamed entries) values ↔ fields.Holds entries values := by
  refine ⟨fun always => ?_, always_readNamed⟩
  rw [readNamed, Read.always_bind_iff (settled_fillAll settled)] at always
  obtain ⟨⟨filled, passed⟩, done, finished⟩ := always
  exact holds_of_fills (fills_of_fillAll settled done) finished

end Finishing

section Standing

variable {entries : List (FieldKey × Datum)}

/-- Whether a key selects the field of this name that stands after so many others. -/
def selects (index : Nat) (name : String) : FieldKey → Bool
  | .name text => text = name
  | .number n => n = index

def standing (index : Nat) (name : String) (entries : List (FieldKey × Datum)) : List Datum :=
  entries.filterMap (fun entry => if selects index name entry.1 then some entry.2 else none)

theorem own_eq_standing (field : Field α) (entries : List (FieldKey × Datum)) :
    field.own entries = standing 0 field.name entries := by
  unfold Field.own standing
  refine congrArg (List.filterMap · entries) (funext fun entry => ?_)
  obtain ⟨key, datum⟩ := entry
  cases key <;> rfl

theorem selects_next (index : Nat) {field : Field α} {key : FieldKey} (name : String)
    (passed : selectsFirst key field.name = false) :
    selects index name (nextKey key) = selects (index + 1) name key := by
  cases key with
  | name text => rfl
  | number n =>
    simp only [selectsFirst, decide_eq_false_iff_not] at passed
    simp only [nextKey, selects, decide_eq_decide]
    omega

theorem standing_others (index : Nat) (field : Field α) {name : String}
    (other : name ≠ field.name) (entries : List (FieldKey × Datum)) :
    standing index name (field.others entries) = standing (index + 1) name entries := by
  unfold standing Field.others
  rw [List.filterMap_filterMap]
  congr 1
  funext entry
  obtain ⟨key, datum⟩ := entry
  cases selected : selectsFirst key field.name with
  | true =>
    have passed : selects (index + 1) name key = false := by
      cases key with
      | name text =>
        simp only [selectsFirst, decide_eq_true_eq] at selected
        simp [selects, selected, other.symm]
      | number n =>
        simp only [selectsFirst, decide_eq_true_eq] at selected
        simp [selects, selected]
    simp [passed]
  | false => simp [selects_next index name selected]

end Standing

end Fields

end ApiManifest
