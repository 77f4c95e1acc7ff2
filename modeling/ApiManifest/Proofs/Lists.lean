import Mathlib.Data.List.Forall2
import Mathlib.Data.List.TakeWhile

/-!
Lists that begin with a run of elements of one kind, lists whose elements are related one by one,
and what is found in lists.
-/

namespace ApiManifest

section Runs

variable {α : Type} {stays : α → Bool} {run rest : List α}

theorem exists_run (kind : α → Bool) (text : List α) :
    ∃ run rest, text = run ++ rest ∧ (∀ c ∈ run, kind c) ∧ ∀ c ∈ rest.head?, kind c = false := by
  induction text with
  | nil => exact ⟨[], [], by simp⟩
  | cons c text ih =>
    obtain ⟨run, rest, split, inside, stops⟩ := ih
    by_cases h : kind c
    · exact ⟨c :: run, rest, by simp [split], by simpa [h] using inside, stops⟩
    · exact ⟨[], c :: text, rfl, by simp, by simpa using h⟩

theorem takeWhile_run (inside : ∀ c ∈ run, stays c = true)
    (stops : ∀ c, rest.head? = some c → stays c = false) :
    (run ++ rest).takeWhile stays = run := by
  rw [List.takeWhile_append_of_pos inside]
  cases rest with
  | nil => rw [List.takeWhile_nil, List.append_nil]
  | cons c rest =>
    rw [List.takeWhile_cons_of_neg (by simp [stops c rfl]), List.append_nil]

theorem dropWhile_run (inside : ∀ c ∈ run, stays c = true)
    (stops : ∀ c, rest.head? = some c → stays c = false) :
    (run ++ rest).dropWhile stays = rest := by
  rw [List.dropWhile_append_of_pos inside]
  cases rest with
  | nil => rfl
  | cons c rest => exact List.dropWhile_cons_of_neg (by simp [stops c rfl])

variable [DecidableEq α] {mark : α} {front : List α}

theorem takeWhile_until (outside : mark ∉ front) (rest : List α) :
    (front ++ mark :: rest).takeWhile (· ≠ mark) = front := by
  apply takeWhile_run
  · intro c member
    exact decide_eq_true (fun same => outside (same ▸ member))
  · rintro c first
    cases first
    exact decide_eq_false (not_not.2 rfl)

theorem dropWhile_until (outside : mark ∉ front) (rest : List α) :
    (front ++ mark :: rest).dropWhile (· ≠ mark) = mark :: rest := by
  apply dropWhile_run
  · intro c member
    exact decide_eq_true (fun same => outside (same ▸ member))
  · rintro c first
    cases first
    exact decide_eq_false (not_not.2 rfl)

end Runs

section Related

variable {α β : Type} {relation : α → β → Prop} {items : List α} {others : List β}

theorem exists_of_mem_left (related : List.Forall₂ relation items others) {item : α}
    (member : item ∈ items) : ∃ other ∈ others, relation item other := by
  induction related with
  | nil => cases member
  | cons head _ ih =>
    rcases List.mem_cons.1 member with rfl | later
    · exact ⟨_, List.mem_cons_self, head⟩
    · obtain ⟨other, inOthers, here⟩ := ih later
      exact ⟨other, List.mem_cons_of_mem _ inOthers, here⟩

theorem exists_of_mem_right (related : List.Forall₂ relation items others) {other : β}
    (member : other ∈ others) : ∃ item ∈ items, relation item other :=
  exists_of_mem_left related.flip member

end Related

theorem find?_of_unique {α : Type} {items : List α} {item : α} {test : α → Prop}
    [DecidablePred test] (member : item ∈ items) (passes : test item)
    (unique : ∀ other ∈ items, test other → other = item) :
    items.find? (fun other => test other) = some item := by
  cases found : items.find? (fun other => test other) with
  | none =>
    have fails := List.find?_eq_none.1 found item member
    exact absurd (decide_eq_true passes) fails
  | some other =>
    have inside := List.mem_of_find?_eq_some found
    have passed : test other := by simpa using List.find?_some found
    rw [unique other inside passed]

end ApiManifest
