import ApiManifest.Proofs.Dependence

/-!
A disabled operation has no influence on any manifest. It may be deleted, or replaced by whatever
else is disabled in its place, and every manifest stays what it was or keeps failing as it did.
-/

namespace ApiManifest

namespace OpenApi

open Gateway (Method)

namespace PathItem

def replace (item : PathItem) (method : Method) (operation : Option Operation) : PathItem :=
  match method with
  | .get => { item with get := operation }
  | .put => { item with put := operation }
  | .post => { item with post := operation }
  | .delete => { item with delete := operation }
  | .options => { item with options := operation }
  | .head => { item with head := operation }
  | .patch => { item with patch := operation }
  | .trace => { item with trace := operation }
  | .connect => item

theorem replace_parameters (item : PathItem) (method : Method) (operation : Option Operation) :
    (item.replace method operation).parameters = item.parameters := by
  cases method <;> rfl

theorem replace_extension (item : PathItem) (method : Method) (operation : Option Operation) :
    (item.replace method operation).extension = item.extension := by
  cases method <;> rfl

theorem operation?_replace_self {item : PathItem} {method : Method} {operation : Operation}
    (declared : item.operation? method = some operation) (other : Option Operation) :
    (item.replace method other).operation? method = other := by
  cases method with
  | connect => cases declared
  | _ => rfl

theorem operation?_replace_of_ne (item : PathItem) {method other : Method}
    (different : other ≠ method) (operation : Option Operation) :
    (item.replace method operation).operation? other = item.operation? other := by
  cases method <;> cases other <;> first | rfl | exact absurd rfl different

end PathItem

namespace Document

def replace (document : Document) (path : String) (method : Method)
    (operation : Option Operation) : Document :=
  { document with paths := document.paths.mapValues (fun template item =>
      if template = path then item.replace method operation else item) }

/-- The document without the operation under a path and a verb. -/
def without (document : Document) (path : String) (method : Method) : Document :=
  document.replace path method none

end Document

end OpenApi

namespace Generate

open Extension (Settings)
open Gateway (Method)
open OpenApi
open Resolution

/-- Nothing, or an operation that is disabled where it stands. -/
def IsPassedOver (path : String) (item : PathItem) (method : Method)
    (operation : Option Operation) : Prop :=
  ∀ own ∈ operation, ∃ effective, Reads ⟨path, item, method, own⟩ effective ∧
    effective.disabled = true

section Replaced

variable {document : Document} {path : String} {item : PathItem} {method : Method}
  {operation : Operation} {other : Option Operation}

theorem sameSite_replace (document : Document) (path : String) (item : PathItem)
    (method : Method) (other : Option Operation) (verb : Method) (own : Operation) :
    SameSite (document.replace path method other) document
      ⟨path, item.replace method other, verb, own⟩ ⟨path, item, verb, own⟩ where
  path := rfl
  method := rfl
  operationId := rfl
  parameters := rfl
  sharedParameters := item.replace_parameters method other
  node := rfl
  effective := by
    unfold effectiveAt
    rw [item.replace_extension]
  security := rfl

theorem operationAt_of_passedOver {changed : PathItem}
    (stands : changed.operation? method = other) (extension : changed.extension = item.extension)
    (passedOver : IsPassedOver path item method other) :
    faultAt document.components path changed method = none ∧
      recordAt document path changed method = none := by
  cases other with
  | none =>
    unfold faultAt recordAt
    rw [stands]
    exact ⟨rfl, rfl⟩
  | some own =>
    obtain ⟨effective, reads, disabled⟩ := passedOver own rfl
    refine operationAt_of_disabled stands ?_ disabled
    unfold Reads at reads ⊢
    rw [extension]
    exact reads

/-- Under the verb that changes nothing is found before and after, and elsewhere nothing changes. -/
theorem sameItem_replace (declared : item.operation? method = some operation)
    (before : IsPassedOver path item method (some operation))
    (after : IsPassedOver path item method other) :
    SameItem (document.replace path method other) document path
      (item.replace method other) item := by
  have found : ∀ verb,
      faultAt (document.replace path method other).components path
          (item.replace method other) verb = faultAt document.components path item verb ∧
      recordAt (document.replace path method other) path (item.replace method other) verb =
        recordAt document path item verb := by
    intro verb
    by_cases here : verb = method
    · subst here
      have before : faultAt document.components path item verb = none ∧
          recordAt document path item verb = none :=
        operationAt_of_passedOver declared rfl before
      rw [before.1, before.2]
      exact operationAt_of_passedOver (PathItem.operation?_replace_self declared other)
        (item.replace_extension verb other) after
    · -- Another verb has the same operation, on a path that differs only under the first verb.
      refine @operationAt_eq (document.replace path method other) document rfl rfl _ _ _ _ ?_
      rw [item.operation?_replace_of_ne here]
      cases item.operation? verb with
      | none => exact Option.Rel.none
      | some own =>
        exact Option.Rel.some (sameSite_replace document path item method other verb own)
  refine ⟨?_, fun verb => (found verb).1, fun verb => (found verb).2⟩
  rw [item.replace_extension]

theorem sameManifests_replace (stands : document.paths.get? path = some item)
    (declared : item.operation? method = some operation)
    (before : IsPassedOver path item method (some operation))
    (after : IsPassedOver path item method other) :
    SameManifests (document.replace path method other) document := by
  refine sameManifests_of_operations rfl rfl rfl (operations_bare rfl rfl ?_)
  refine List.forall₂_map_left_iff.2 (List.forall₂_same.2 fun entry member => ⟨rfl, ?_⟩)
  obtain ⟨template, own⟩ := entry
  by_cases here : template = path
  · subst here
    have found : document.paths.get? template = some own :=
      Dict.lookup_of_mem document.paths.distinct member
    cases stands.symm.trans found
    simp only [if_true]
    exact sameItem_replace declared before after
  · simp only [here, if_false]
    exact ⟨rfl, fun _ => rfl, fun _ => rfl⟩

/-- A disabled operation may be deleted, or be replaced by another that is disabled in its place,
whatever else that declares: no manifest changes. -/
theorem disabled_operation_irrelevant {effective : Effective}
    (stands : document.paths.get? path = some item)
    (declared : item.operation? method = some operation)
    (reads : Reads ⟨path, item, method, operation⟩ effective)
    (disabled : effective.disabled = true) :
    SameManifests (document.without path method) document ∧
      ∀ replacement effective', Reads ⟨path, item, method, replacement⟩ effective' →
        effective'.disabled = true →
        SameManifests (document.replace path method (some replacement)) document := by
  have before : IsPassedOver path item method (some operation) := by
    intro own same
    cases same
    exact ⟨effective, reads, disabled⟩
  refine ⟨sameManifests_replace stands declared before fun own same => (by cases same), ?_⟩
  intro replacement effective' reads' disabled'
  refine sameManifests_replace stands declared before fun own same => ?_
  cases same
  exact ⟨effective', reads', disabled'⟩

end Replaced

def danglingOperation : Operation :=
  ⟨some "addPet", [.reference "#/components/parameters/gone"],
    some [.ofList [("missing", [])]], none⟩

def retiredItem : PathItem :=
  { readItem ⟨some "listPets", [], none, some (.object [("disable", .bool false)])⟩ with
    post := some danglingOperation
    extension := some (.object [("disable", .bool true)]) }

def retired : Document :=
  { petstore with paths := .ofList [("/pets", retiredItem)] }

theorem retired_operation_irrelevant :
    (∃ effective, Reads ⟨"/pets", retiredItem, .post, danglingOperation⟩ effective ∧
      effective.disabled = true) ∧ SameManifests (retired.without "/pets" .post) retired := by
  have inherited : Settings.ofJson (.path "/pets") retiredItem.extension =
      .ok ⟨some true, none, [], none⟩ := by rfl
  have own : Settings.ofJson (.operation "/pets" Method.post.name) danglingOperation.extension =
      .ok .nothing := by rfl
  have reads : Reads ⟨"/pets", retiredItem, .post, danglingOperation⟩ _ :=
    ⟨_, _, inherited, own, rfl⟩
  exact ⟨⟨_, reads, rfl⟩, (disabled_operation_irrelevant rfl rfl reads rfl).1⟩

end Generate

end ApiManifest
