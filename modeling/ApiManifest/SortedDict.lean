import ApiManifest.Dict

/-!
Dictionaries whose entries stand in the order of their keys, compared character by character.
Inserting a value under a key that is already there replaces the value. A dictionary is settled by
what is found under each key, and what is found is the value inserted last.
-/

namespace ApiManifest

structure SortedDict (α : Type) where
  entries : List (String × α)
  sorted : entries.Pairwise (fun left right => left.1 < right.1)
  deriving DecidableEq

namespace SortedDict

variable {α : Type}

/-- The entries with `value` under `key`, before the first greater key. -/
def place (key : String) (value : α) : List (String × α) → List (String × α)
  | [] => [(key, value)]
  | (other, old) :: rest =>
    if key < other then (key, value) :: (other, old) :: rest
    else if key = other then (key, value) :: rest
    else (other, old) :: place key value rest

theorem mem_keys_place (key : String) (value : α) (entries : List (String × α))
    (entry : String × α) (member : entry ∈ place key value entries) :
    entry.1 = key ∨ entry ∈ entries := by
  induction entries with
  | nil => simp_all [place]
  | cons first rest ih =>
    obtain ⟨other, old⟩ := first
    simp only [place] at member
    split at member
    · rcases List.mem_cons.1 member with h | h
      · simp [h]
      · exact Or.inr h
    · split at member
      · rcases List.mem_cons.1 member with h | h
        · simp [h]
        · exact Or.inr (List.mem_cons_of_mem _ h)
      · rcases List.mem_cons.1 member with h | h
        · simp [h]
        · rcases ih h with h | h
          · exact Or.inl h
          · exact Or.inr (List.mem_cons_of_mem _ h)

theorem place_sorted (key : String) (value : α) (entries : List (String × α))
    (sorted : entries.Pairwise (fun left right => left.1 < right.1)) :
    (place key value entries).Pairwise (fun left right => left.1 < right.1) := by
  induction entries with
  | nil => simp [place]
  | cons first rest ih =>
    obtain ⟨other, old⟩ := first
    rw [List.pairwise_cons] at sorted
    simp only [place]
    split
    · next less =>
      refine List.pairwise_cons.2 ⟨fun entry member => ?_, List.pairwise_cons.2 sorted⟩
      rcases List.mem_cons.1 member with h | h
      · simpa [h] using less
      · exact String.lt_trans less (sorted.1 entry h)
    · next notLess =>
      split
      · next same =>
        subst same
        exact List.pairwise_cons.2 sorted
      · next different =>
        refine List.pairwise_cons.2 ⟨fun entry member => ?_, ih sorted.2⟩
        rcases mem_keys_place key value rest entry member with h | h
        · rw [h]
          exact Std.lt_of_le_of_ne (String.not_lt.1 notLess) (Ne.symm different)
        · exact sorted.1 entry h

theorem lookup_eq_none_of_lt {entries : List (String × α)} {name : String}
    (greater : ∀ entry ∈ entries, name < entry.1) : entries.lookup name = none := by
  refine List.lookup_eq_none_iff.2 fun entry member => ?_
  have less := greater entry member
  have different : name ≠ entry.1 := fun equal => String.lt_irrefl _ (equal ▸ less)
  simpa using different

/-- Entries in order are settled by what is found under each key. -/
theorem entries_eq_of_lookup {left right : List (String × α)}
    (sortedLeft : left.Pairwise (fun first second => first.1 < second.1))
    (sortedRight : right.Pairwise (fun first second => first.1 < second.1))
    (same : ∀ name, left.lookup name = right.lookup name) : left = right := by
  induction left generalizing right with
  | nil =>
    cases right with
    | nil => rfl
    | cons entry rest =>
      have found := same entry.1
      rw [Dict.lookup_entry entry.1 entry.1 entry.2 rest] at found
      simp at found
  | cons entry rest ih =>
    cases right with
    | nil =>
      have found := same entry.1
      rw [Dict.lookup_entry entry.1 entry.1 entry.2 rest] at found
      simp at found
    | cons other others =>
      obtain ⟨key, value⟩ := entry
      obtain ⟨otherKey, otherValue⟩ := other
      rw [List.pairwise_cons] at sortedLeft sortedRight
      have keys : key = otherKey := by
        by_cases equal : key = otherKey
        · exact equal
        · have fromRight := same key
          have fromLeft := same otherKey
          rw [Dict.lookup_entry, Dict.lookup_entry, if_pos rfl, if_neg equal] at fromRight
          rw [Dict.lookup_entry, Dict.lookup_entry, if_neg (Ne.symm equal), if_pos rfl]
            at fromLeft
          have greater := sortedRight.1 _ (Dict.mem_of_lookup fromRight.symm)
          have less := sortedLeft.1 _ (Dict.mem_of_lookup fromLeft)
          exact absurd (String.lt_trans greater less) (String.lt_irrefl _)
      subst keys
      have values := same key
      rw [Dict.lookup_entry, Dict.lookup_entry, if_pos rfl, if_pos rfl, Option.some.injEq] at values
      subst values
      rw [ih sortedLeft.2 sortedRight.2 fun name => ?_]
      by_cases here : name = key
      · subst here
        rw [lookup_eq_none_of_lt sortedLeft.1, lookup_eq_none_of_lt sortedRight.1]
      · have rest := same name
        rwa [Dict.lookup_entry, Dict.lookup_entry, if_neg here, if_neg here] at rest

def empty : SortedDict α := ⟨[], List.Pairwise.nil⟩

instance : Inhabited (SortedDict α) := ⟨empty⟩

def insert (dict : SortedDict α) (key : String) (value : α) : SortedDict α :=
  ⟨place key value dict.entries, place_sorted key value dict.entries dict.sorted⟩

theorem lookup_place (key : String) (value : α) (entries : List (String × α)) (name : String) :
    (place key value entries).lookup name =
      if name = key then some value else entries.lookup name := by
  induction entries with
  | nil => simp only [place, Dict.lookup_entry]
  | cons entry rest ih =>
    obtain ⟨other, old⟩ := entry
    simp only [place]
    split
    · simp only [Dict.lookup_entry]
    · split
      · next same =>
        subst same
        simp only [Dict.lookup_entry]
        split <;> rfl
      · next different =>
        simp only [Dict.lookup_entry, ih]
        by_cases here : name = other
        · subst here
          simp [Ne.symm different]
        · simp [here]

/-- Inserts the entries one after the other, so the last value given for a key is the one kept. -/
def ofList (entries : List (String × α)) : SortedDict α :=
  entries.foldl (fun dict entry => dict.insert entry.1 entry.2) empty

def get? (dict : SortedDict α) (key : String) : Option α :=
  dict.entries.lookup key

@[simp] theorem get?_insert (dict : SortedDict α) (key : String) (value : α) (name : String) :
    (dict.insert key value).get? name = if name = key then some value else dict.get? name :=
  lookup_place key value dict.entries name

theorem eq_of_get? {left right : SortedDict α} (same : ∀ name, left.get? name = right.get? name) :
    left = right := by
  have entries := entries_eq_of_lookup left.sorted right.sorted same
  cases left
  cases right
  simpa using entries

/-- The last value given for a key is the one found. -/
theorem get?_ofList (entries : List (String × α)) (name : String) :
    (ofList entries).get? name = entries.reverse.lookup name := by
  suffices general : ∀ (rest : List (String × α)) (dict : SortedDict α),
      (rest.foldl (fun dict entry => dict.insert entry.1 entry.2) dict).get? name =
        (rest.reverse.lookup name).or (dict.get? name) by
    rw [ofList, general]
    simp [empty, get?]
  intro rest
  induction rest with
  | nil => simp
  | cons entry rest ih =>
    intro dict
    obtain ⟨key, value⟩ := entry
    rw [List.foldl_cons, ih, get?_insert, List.reverse_cons, List.lookup_append, Dict.lookup_entry]
    cases rest.reverse.lookup name with
    | some found => simp
    | none => by_cases same : name = key <;> simp [same]

theorem lookup_reverse_append (first second : List (String × α)) (key : String) :
    (first ++ second).reverse.lookup key =
      (second.reverse.lookup key).or (first.reverse.lookup key) := by
  rw [List.reverse_append, List.lookup_append]

theorem lookup_reverse_eq_none_iff (entries : List (String × α)) (key : String) :
    entries.reverse.lookup key = none ↔ ∀ value, (key, value) ∉ entries := by
  rw [List.lookup_eq_none_iff]
  constructor
  · intro absent value member
    simpa using absent _ (List.mem_reverse.2 member)
  · intro absent entry member
    have different : key ≠ entry.1 := by
      intro same
      subst same
      exact absent entry.2 (List.mem_reverse.1 member)
    simpa using different

theorem lookup_reverse_eq_some_iff (entries : List (String × α)) (key : String) (value : α) :
    entries.reverse.lookup key = some value ↔
      ∃ before after, entries = before ++ (key, value) :: after ∧
        ∀ other, (key, other) ∉ after := by
  constructor
  · intro found
    obtain ⟨after, before, turned, fresh⟩ := List.lookup_eq_some_iff.1 found
    refine ⟨before.reverse, after.reverse, ?_, fun other member => ?_⟩
    · rw [← List.reverse_reverse entries, turned]
      simp
    · have different := fresh _ (List.mem_reverse.1 member)
      simp at different
  · rintro ⟨before, after, rfl, fresh⟩
    rw [lookup_reverse_append, List.reverse_cons, List.lookup_append,
      (lookup_reverse_eq_none_iff after key).2 fresh, Dict.lookup_entry, if_pos rfl]
    rfl

/-- Where entries come from sources, a key holds what the last source gives for it. -/
theorem get?_ofList_filterMap {σ : Type} (sources : List σ) (give : σ → Option (String × α))
    (key : String) (value : α) :
    (ofList (sources.filterMap give)).get? key = some value ↔
      ∃ before source after, sources = before ++ source :: after ∧
        give source = some (key, value) ∧
        ∀ later ∈ after, ∀ other, give later ≠ some (key, other) := by
  rw [get?_ofList, lookup_reverse_eq_some_iff]
  constructor
  · rintro ⟨before, after, given, fresh⟩
    obtain ⟨start, rest, rfl, _, found⟩ := List.filterMap_eq_append_iff.1 given
    obtain ⟨between, source, later, rfl, _, gives, rfl⟩ := List.filterMap_eq_cons_iff.1 found
    refine ⟨start ++ between, source, later, (List.append_assoc ..).symm, gives, ?_⟩
    intro other member again givesAgain
    exact fresh again (List.mem_filterMap.2 ⟨other, member, givesAgain⟩)
  · rintro ⟨before, source, after, rfl, gives, last⟩
    refine ⟨before.filterMap give, after.filterMap give, ?_, fun other member => ?_⟩
    · rw [List.filterMap_append, List.filterMap_cons, gives]
    · obtain ⟨later, stands, givesOther⟩ := List.mem_filterMap.1 member
      exact last later stands other givesOther

theorem nodup_of_sorted {entries : List (String × α)}
    (sorted : entries.Pairwise (fun left right => left.1 < right.1)) :
    (entries.map Prod.fst).Nodup :=
  List.pairwise_map.2 (sorted.imp fun {left right} less (equal : left.1 = right.1) =>
    String.lt_irrefl right.1 (equal ▸ less))

/-- What a dictionary holds is what was inserted. -/
theorem mem_of_mem_ofList {entries : List (String × α)} {entry : String × α}
    (member : entry ∈ (ofList entries).entries) : entry ∈ entries := by
  have found : (ofList entries).get? entry.1 = some entry.2 :=
    Dict.lookup_of_mem (nodup_of_sorted (ofList entries).sorted) member
  rw [get?_ofList] at found
  exact List.mem_reverse.1 (Dict.mem_of_lookup found)

/-- Every key that was inserted is there. -/
theorem mem_keys_ofList {entries : List (String × α)} {entry : String × α}
    (member : entry ∈ entries) : entry.1 ∈ (ofList entries).entries.map Prod.fst := by
  cases found : (ofList entries).get? entry.1 with
  | some value => exact List.mem_map.2 ⟨_, Dict.mem_of_lookup found, rfl⟩
  | none =>
    rw [get?_ofList, List.lookup_eq_none_iff] at found
    have absent := found entry (List.mem_reverse.2 member)
    simp at absent

/-- Where a key has one value, that value is found wherever it stands. -/
theorem lookup_eq_some_iff_mem {entries : List (String × α)} {key : String} {value : α}
    (single : ∀ first second, (key, first) ∈ entries → (key, second) ∈ entries → first = second) :
    entries.lookup key = some value ↔ (key, value) ∈ entries := by
  constructor
  · exact Dict.mem_of_lookup
  · intro member
    cases found : entries.lookup key with
    | some other => rw [single value other member (Dict.mem_of_lookup found)]
    | none =>
      have absent := List.lookup_eq_none_iff.1 found (key, value) member
      simp at absent

theorem get?_ofList_of_nodup {entries : List (String × α)}
    (distinct : (entries.map Prod.fst).Nodup) (name : String) :
    (ofList entries).get? name = entries.lookup name := by
  have single : ∀ first second, (name, first) ∈ entries → (name, second) ∈ entries →
      first = second := by
    intro first second here there
    have found := Dict.lookup_of_mem distinct here
    exact Option.some.inj (found.symm.trans (Dict.lookup_of_mem distinct there))
  refine Option.ext fun value => ?_
  rw [get?_ofList, lookup_eq_some_iff_mem single, lookup_eq_some_iff_mem, List.mem_reverse]
  intro first second here there
  exact single first second (List.mem_reverse.1 here) (List.mem_reverse.1 there)

/-- The order of the entries does not matter where each key has one value. -/
theorem ofList_congr {left right : List (String × α)} (same : ∀ entry, entry ∈ left ↔ entry ∈ right)
    (single : ∀ key first second, (key, first) ∈ left → (key, second) ∈ left → first = second) :
    ofList left = ofList right := by
  refine eq_of_get? fun name => Option.ext fun value => ?_
  rw [get?_ofList, get?_ofList, lookup_eq_some_iff_mem, lookup_eq_some_iff_mem, List.mem_reverse,
    List.mem_reverse, same]
  · intro first second here there
    rw [List.mem_reverse, ← same] at here there
    exact single name first second here there
  · intro first second here there
    rw [List.mem_reverse] at here there
    exact single name first second here there

/-- Sorted entries stand in the dictionary as they are given. -/
theorem entries_ofList {entries : List (String × α)}
    (sorted : entries.Pairwise (fun left right => left.1 < right.1)) :
    (ofList entries).entries = entries := by
  have single : ∀ key first second, (key, first) ∈ entries.reverse →
      (key, second) ∈ entries.reverse → first = second := by
    intro key first second here there
    have found := Dict.lookup_of_mem (nodup_of_sorted sorted) (List.mem_reverse.1 here)
    have again := Dict.lookup_of_mem (nodup_of_sorted sorted) (List.mem_reverse.1 there)
    exact Option.some.inj (found.symm.trans again)
  have same : ofList entries = ⟨entries, sorted⟩ := by
    refine eq_of_get? fun name => Option.ext fun value => ?_
    rw [get?_ofList, lookup_eq_some_iff_mem (single name), List.mem_reverse]
    constructor
    · exact Dict.lookup_of_mem (nodup_of_sorted sorted)
    · exact Dict.mem_of_lookup
  exact congrArg SortedDict.entries same

theorem ofList_entries (dict : SortedDict α) : ofList dict.entries = dict := by
  obtain ⟨entries, sorted⟩ := dict
  have kept := entries_ofList sorted
  cases made : ofList entries
  rw [made] at kept
  dsimp only at kept
  subst kept
  rfl

def isEmpty (dict : SortedDict α) : Bool :=
  dict.entries.isEmpty

theorem eq_empty_of_isEmpty {dict : SortedDict α} (none : dict.isEmpty = true) :
    dict = empty := by
  cases dict with
  | mk entries sorted =>
    cases entries with
    | nil => rfl
    | cons first rest => cases none

end SortedDict

end ApiManifest
