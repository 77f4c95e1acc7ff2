import ApiManifest.SortedDict

/-!
Values that count as left out when they are empty.
-/

namespace ApiManifest.Nonempty

/-- A text that is there and is not empty. -/
def text? (text : Option String) : Option String :=
  text.filter (fun value => !value.isEmpty)

def list? {α : Type} (items : List α) : Option (List α) :=
  if items.isEmpty then none else some items

def dict? {α : Type} (dict : SortedDict α) : Option (SortedDict α) :=
  if dict.isEmpty then none else some dict

@[simp] theorem getD_list? {α : Type} (items : List α) : (list? items).getD [] = items := by
  cases items <;> rfl

@[simp] theorem getD_dict? {α : Type} (dict : SortedDict α) :
    (dict? dict).getD .empty = dict := by
  unfold dict?
  split
  next none => exact (SortedDict.eq_empty_of_isEmpty none).symm
  next => rfl

theorem list?_eq_none_iff {α : Type} (items : List α) : list? items = none ↔ items = [] := by
  cases items <;> simp [list?]

theorem dict?_eq_none_iff {α : Type} (dict : SortedDict α) :
    dict? dict = none ↔ ∀ key, ¬ (dict.get? key).isSome := by
  unfold dict?
  split
  next empty =>
    rw [SortedDict.eq_empty_of_isEmpty empty]
    exact ⟨fun _ key => Bool.false_ne_true, fun _ => rfl⟩
  next filled =>
    constructor
    · intro absent
      cases absent
    · intro absent
      have same : dict = .empty := SortedDict.eq_of_get? fun key => by
        rw [Option.not_isSome_iff_eq_none.1 (absent key)]
        rfl
      rw [same] at filled
      exact absurd rfl filled

end ApiManifest.Nonempty
