/-!
Dictionaries that remember the order in which their keys first came. Putting a value under a
key that is already there keeps the key's place and replaces its value, so the keys stay
distinct whatever is put, and what is found under a key is the value put last.
-/

namespace ApiManifest

structure Dict (α : Type) where
  entries : List (String × α)
  distinct : (entries.map Prod.fst).Nodup
  deriving DecidableEq

namespace Dict

variable {α β : Type}

/-- The entries with `value` under `key`: in the key's own place, or at the end. -/
def assign (key : String) (value : α) : List (String × α) → List (String × α)
  | [] => [(key, value)]
  | (other, old) :: rest =>
    if other = key then (other, value) :: rest else (other, old) :: assign key value rest

theorem mem_keys_assign (key : String) (value : α) (entries : List (String × α)) (name : String) :
    name ∈ (assign key value entries).map Prod.fst ↔
      name = key ∨ name ∈ entries.map Prod.fst := by
  induction entries with
  | nil => simp [assign]
  | cons entry rest ih =>
    obtain ⟨other, old⟩ := entry
    by_cases same : other = key
    · subst same
      simp [assign]
    · simp only [assign, same, if_false, List.map_cons, List.mem_cons, ih]
      constructor
      · rintro (h | h | h) <;> simp [h]
      · rintro (h | h | h) <;> simp [h]

theorem assign_nodup (key : String) (value : α) (entries : List (String × α))
    (distinct : (entries.map Prod.fst).Nodup) :
    ((assign key value entries).map Prod.fst).Nodup := by
  induction entries with
  | nil => simp [assign]
  | cons entry rest ih =>
    obtain ⟨other, old⟩ := entry
    simp only [List.map_cons, List.nodup_cons] at distinct
    by_cases same : other = key
    · simpa [assign, same] using distinct
    · simp only [assign, same, if_false, List.map_cons, List.nodup_cons]
      refine ⟨fun member => ?_, ih distinct.2⟩
      rcases (mem_keys_assign key value rest other).1 member with h | h
      · exact same h
      · exact distinct.1 h

def empty : Dict α := ⟨[], List.nodup_nil⟩

instance : Inhabited (Dict α) := ⟨empty⟩

def put (dict : Dict α) (key : String) (value : α) : Dict α :=
  ⟨assign key value dict.entries, assign_nodup key value dict.entries dict.distinct⟩

theorem lookup_entry (name key : String) (value : α) (rest : List (String × α)) :
    ((key, value) :: rest).lookup name = if name = key then some value else rest.lookup name := by
  rw [List.lookup_cons]
  by_cases same : name = key
  · simp [same]
  · rw [beq_eq_false_iff_ne.2 same, if_neg same]

theorem lookup_map (change : α → β) (entries : List (String × α)) (name : String) :
    (entries.map (fun entry => (entry.1, change entry.2))).lookup name =
      (entries.lookup name).map change := by
  induction entries with
  | nil => rfl
  | cons entry rest ih =>
    rw [List.map_cons, lookup_entry, lookup_entry, ih]
    split <;> rfl

theorem lookup_assign (key : String) (value : α) (entries : List (String × α)) (name : String) :
    (assign key value entries).lookup name =
      if name = key then some value else entries.lookup name := by
  induction entries with
  | nil => simp only [assign, lookup_entry]
  | cons entry rest ih =>
    obtain ⟨other, old⟩ := entry
    by_cases same : other = key
    · subst same
      simp only [assign, if_true, lookup_entry]
      split <;> rfl
    · simp only [assign, same, if_false, lookup_entry, ih]
      by_cases here : name = other
      · subst here
        simp [same]
      · simp [here]

theorem mem_of_lookup {entries : List (String × α)} {name : String} {value : α}
    (found : entries.lookup name = some value) : (name, value) ∈ entries := by
  obtain ⟨before, after, whole, _⟩ := List.lookup_eq_some_iff.1 found
  simp [whole]

/-- With distinct keys each entry is found under its key. -/
theorem lookup_of_mem {entries : List (String × α)} (distinct : (entries.map Prod.fst).Nodup)
    {key : String} {value : α} (member : (key, value) ∈ entries) :
    entries.lookup key = some value := by
  induction entries with
  | nil => cases member
  | cons entry rest ih =>
    obtain ⟨other, old⟩ := entry
    rw [List.map_cons, List.nodup_cons] at distinct
    rw [lookup_entry]
    rcases List.mem_cons.1 member with same | later
    · cases same
      rw [if_pos rfl]
    · have different : key ≠ other := by
        rintro rfl
        have again : (key, value).1 ∈ rest.map Prod.fst := List.mem_map_of_mem later
        exact distinct.1 again
      rw [if_neg different]
      exact ih distinct.2 later

/-- Puts the entries one after the other, so the last value given for a key is the one kept. -/
def ofList (entries : List (String × α)) : Dict α :=
  entries.foldl (fun dict entry => dict.put entry.1 entry.2) empty

def get? (dict : Dict α) (key : String) : Option α :=
  dict.entries.lookup key

@[simp] theorem get?_put (dict : Dict α) (key : String) (value : α) (name : String) :
    (dict.put key value).get? name = if name = key then some value else dict.get? name :=
  lookup_assign key value dict.entries name

theorem assign_new {key : String} (value : α) {entries : List (String × α)}
    (new : key ∉ entries.map Prod.fst) : assign key value entries = entries ++ [(key, value)] := by
  induction entries with
  | nil => rfl
  | cons entry entries ih =>
    obtain ⟨other, old⟩ := entry
    simp only [List.map_cons, List.mem_cons, not_or] at new
    rw [assign, if_neg (Ne.symm new.1), ih new.2]
    rfl

/-- Entries whose keys differ stand in the dictionary as they are. -/
theorem ofList_distinct {entries : List (String × α)}
    (distinct : (entries.map Prod.fst).Nodup) : ofList entries = ⟨entries, distinct⟩ := by
  suffices general : ∀ (rest : List (String × α)) (dict : Dict α),
      ((dict.entries ++ rest).map Prod.fst).Nodup →
        (rest.foldl (fun dict entry => dict.put entry.1 entry.2) dict).entries
          = dict.entries ++ rest by
    have whole := general entries empty distinct
    rw [ofList]
    generalize entries.foldl _ _ = dict at whole ⊢
    obtain ⟨found, _⟩ := dict
    simpa [empty] using whole
  intro rest
  induction rest with
  | nil => simp
  | cons entry rest ih =>
    intro dict apart
    obtain ⟨key, value⟩ := entry
    have new : key ∉ dict.entries.map Prod.fst := by
      intro member
      rw [List.map_append, List.map_cons, List.nodup_append] at apart
      exact apart.2.2 key member key (by simp) rfl
    have put : (dict.put key value).entries = dict.entries ++ [(key, value)] :=
      assign_new value new
    rw [List.foldl_cons, ih _ (by rw [put]; simpa using apart), put]
    simp

/-- What is found does not depend on the order of the entries. -/
theorem get?_of_perm {left right : Dict α} (reordered : left.entries.Perm right.entries) :
    left.get? = right.get? := by
  have kept : ∀ (first second : Dict α), first.entries.Perm second.entries → ∀ key value,
      first.get? key = some value → second.get? key = some value := by
    intro first second same key value found
    obtain ⟨before, after, entries, _⟩ := List.lookup_eq_some_iff.1 found
    have member : (key, value) ∈ first.entries := entries ▸ List.mem_append_right _ (.head _)
    exact lookup_of_mem second.distinct (same.subset member)
  funext key
  refine Option.ext fun value => ?_
  exact ⟨kept left right reordered key value, kept right left reordered.symm key value⟩

def keys (dict : Dict α) : List String :=
  dict.entries.map Prod.fst

/-- The dictionary with each value changed, under the same keys. -/
def mapValues (change : String → α → β) (dict : Dict α) : Dict β where
  entries := dict.entries.map (fun entry => (entry.1, change entry.1 entry.2))
  distinct := by
    rw [List.map_map]
    exact dict.distinct

def size (dict : Dict α) : Nat :=
  dict.entries.length

end Dict

end ApiManifest
