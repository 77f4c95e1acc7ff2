import ApiManifest.Proofs.DerivedNames
import ApiManifest.Proofs.Resolution

/-!
Names of operations that have no identifier. No verb begins with another, so that such a name has
one verb and one rest: two of them are equal exactly if the verbs are and if the paths have the same
ASCII letters, digits and underscores in the same order.
-/

namespace ApiManifest.Naming

open Gateway (Method)
open OpenApi (Operation PathItem)

/-- The operation has no identifier, or an empty one. -/
def Unidentified (operation : Operation) : Prop :=
  ∀ id, operation.operationId = some id → id = ""

def wordChars (path : String) : List Char :=
  path.toList.filter (fun c => c.isAlphanum || c = '_')

theorem operationName_of_unidentified {operation : Operation}
    (unidentified : Unidentified operation) (path : String) (method : Method) :
    operationName path method operation = fallbackName path method := by
  unfold operationName
  split
  next id given =>
    rw [unidentified id given]
    rfl
  next => rfl

theorem toList_fallbackName (path : String) (method : Method) :
    (fallbackName path method).toList = method.name.toList ++ wordChars path := by
  have kept : path.toList.filter Text.isWordChar = wordChars path := rfl
  rw [fallbackName, String.toList_append, String.toList_ofList, kept]

/-- No verb is the beginning of another. -/
theorem eq_of_name_begins {first second : Method}
    (begins : first.name.toList <+: second.name.toList) : first = second := by
  cases first <;> cases second <;> first | rfl | exact absurd begins (by decide +kernel)

theorem eq_of_name_append {first second : Method} {rest other : List Char}
    (same : first.name.toList ++ rest = second.name.toList ++ other) :
    first = second ∧ rest = other := by
  have whole : second.name.toList <+: first.name.toList ++ rest := ⟨other, same.symm⟩
  have verbs : first = second := by
    rcases List.prefix_or_prefix_of_prefix (List.prefix_append _ rest) whole with shorter | longer
    · exact eq_of_name_begins shorter
    · exact (eq_of_name_begins longer).symm
  subst verbs
  exact ⟨rfl, List.append_cancel_left same⟩

theorem fallbackName_eq_iff (path other : String) (method verb : Method) :
    fallbackName path method = fallbackName other verb ↔
      method = verb ∧ wordChars path = wordChars other := by
  rw [← String.toList_inj, toList_fallbackName, toList_fallbackName]
  constructor
  · exact eq_of_name_append
  · rintro ⟨rfl, same⟩
    rw [same]

theorem methods_pairwise (item : PathItem) :
    item.operations.Pairwise (fun first second => first.1 ≠ second.1) := by
  refine List.pairwise_map.1 ?_
  rw [Resolution.operations_methods]
  exact Resolution.verbs_nodup.filter _

/-- Operations without identifiers share a name exactly if they have the same verb and their paths
keep the same characters. The operations of one path never do. -/
theorem unidentified_names_eq_iff :
    (∀ (first second : Operation), Unidentified first → Unidentified second →
      ∀ (path other : String) (method verb : Method),
        operationName path method first = operationName other verb second ↔
          method = verb ∧ wordChars path = wordChars other) ∧
    ∀ (item : PathItem) (path : String), item.operations.Pairwise (fun first second =>
      Unidentified first.2 → Unidentified second.2 →
        operationName path first.1 first.2 ≠ operationName path second.1 second.2) := by
  have named : ∀ (first second : Operation), Unidentified first → Unidentified second →
      ∀ (path other : String) (method verb : Method),
        operationName path method first = operationName other verb second ↔
          method = verb ∧ wordChars path = wordChars other := by
    intro first second one two path other method verb
    rw [operationName_of_unidentified one, operationName_of_unidentified two]
    exact fallbackName_eq_iff path other method verb
  refine ⟨named, fun item path => (methods_pairwise item).imp ?_⟩
  intro first second different one two same
  exact different ((named first.2 second.2 one two path path first.1 second.1).1 same).1

theorem spelledVerb_names_differ :
    Unidentified ⟨some "", [], none, none⟩ ∧ Unidentified ⟨none, [], none, none⟩ ∧
      operationName "/pets/{petId}" .get ⟨some "", [], none, none⟩ =
        operationName "pets-petId" .get ⟨none, [], none, none⟩ ∧
      operationName "/OPTIONS" .get ⟨some "", [], none, none⟩ ≠
        operationName "/" .options ⟨none, [], none, none⟩ := by
  have empty : Unidentified ⟨some "", [], none, none⟩ := by
    intro id given
    cases given
    rfl
  have absent : Unidentified ⟨none, [], none, none⟩ := fun _ given => nomatch given
  have names := unidentified_names_eq_iff.1 _ _ empty absent
  refine ⟨empty, absent, (names _ _ _ _).2 ⟨rfl, by decide⟩, fun same => ?_⟩
  exact absurd ((names _ _ _ _).1 same).1 (by decide)

end ApiManifest.Naming
