import ApiManifest.Proofs.SecurityFailures

/-!
All that an AuthPolicy holds. Its top-level selectors are the matches of the secured operations, and
its rules are those of the requirements that name a supported scheme. Under each key stands the rule
of the last requirement that asks for one there, and selectors or rules are left out exactly where
there are none.
-/

namespace ApiManifest.Generate

open OpenApi (Document Requirement SecurityScheme)
open Policy
open Resolution (Resolved enabledSites operations_eq_records record)

def AsksFor (document : Document) (asked : Resolved × Requirement) (key : String) : Prop :=
  ∃ name scheme, Names document asked.2 name scheme ∧ asked.1.name ++ "_" ++ name = key

/-- Of all requirements of the operations, that of this operation for this scheme is the last whose
rule would stand under the key. -/
def LastFor (document : Document) (operations : List Resolved) (key : String)
    (operation : Resolved) (name : String) (scheme : SecurityScheme) : Prop :=
  ∃ before requirement after,
    requirementsOf operations = before ++ (operation, requirement) :: after ∧
      Names document requirement name scheme ∧ operation.name ++ "_" ++ name = key ∧
      ∀ later ∈ after, ¬ AsksFor document later key

theorem mem_requirementsOf {operations : List Resolved} {asked : Resolved × Requirement} :
    asked ∈ requirementsOf operations ↔ asked.1 ∈ operations ∧ asked.2 ∈ asked.1.security := by
  unfold requirementsOf
  rw [List.mem_flatMap]
  constructor
  · rintro ⟨operation, stands, inside⟩
    obtain ⟨requirement, member, rfl⟩ := List.mem_map.1 inside
    exact ⟨stands, member⟩
  · rintro ⟨stands, member⟩
    exact ⟨asked.1, stands, List.mem_map.2 ⟨asked.2, member, rfl⟩⟩

section Rules

variable {document : Document} {operations : List Resolved}
  {outcomes : List (AuthOutcome (String × Authentication))}

def askedRule? (document : Document) (asked : Resolved × Requirement) :
    Option (String × Authentication) :=
  stepRule? (demand document asked.1 asked.2 >>= settlePolicy asked.1)

theorem operationRules_eq (operations : List Resolved) :
    operations.flatMap (operationRules document) =
      (requirementsOf operations).filterMap (askedRule? document) := by
  unfold requirementsOf
  rw [List.filterMap_flatMap]
  refine List.flatMap_congr fun operation _ => ?_
  rw [List.filterMap_map]
  rfl

theorem asksFor_of_rule {asked : Resolved × Requirement} {key : String} {rule : Authentication}
    (made : askedRule? document asked = some (key, rule)) : AsksFor document asked key := by
  obtain ⟨name, scheme, names, joined, _⟩ := names_of_stepRule made
  exact ⟨name, scheme, names, joined.symm⟩

theorem rule_of_names (walked : (walkPolicy document operations).results = .ok outcomes)
    {asked : Resolved × Requirement} (inside : asked ∈ requirementsOf operations) {name : String}
    {scheme : SecurityScheme} (names : Names document asked.2 name scheme) :
    ∃ rule, askedRule? document asked = some (asked.1.name ++ "_" ++ name, rule) ∧
      IsRuleOf asked.1 name scheme rule := by
  obtain ⟨stands, member⟩ := mem_requirementsOf.1 inside
  exact stepRule_of_names names (step_of_results walked stands member)

theorem rule_of_asksFor (walked : (walkPolicy document operations).results = .ok outcomes)
    {asked : Resolved × Requirement} (inside : asked ∈ requirementsOf operations) {key : String}
    (asks : AsksFor document asked key) :
    ∃ rule, askedRule? document asked = some (key, rule) := by
  obtain ⟨name, scheme, names, rfl⟩ := asks
  obtain ⟨rule, made, _⟩ := rule_of_names walked inside names
  exact ⟨rule, made⟩

/-- The rule found under a key is that of the last requirement for it. -/
theorem found_iff_lastFor (walked : (walkPolicy document operations).results = .ok outcomes)
    (key : String) (rule : Authentication) :
    (SortedDict.ofList (operations.flatMap (operationRules document))).get? key = some rule ↔
      ∃ operation name scheme, LastFor document operations key operation name scheme ∧
        IsRuleOf operation name scheme rule := by
  rw [operationRules_eq, SortedDict.get?_ofList_filterMap]
  constructor
  · rintro ⟨before, ⟨operation, requirement⟩, after, whole, made, last⟩
    obtain ⟨name, scheme, names, joined, own⟩ := names_of_stepRule made
    refine ⟨operation, name, scheme, ⟨before, requirement, after, whole, names, joined.symm,
      fun asked member asks => ?_⟩, own⟩
    have inside : asked ∈ requirementsOf operations := by
      rw [whole]
      exact List.mem_append_right _ (List.mem_cons_of_mem _ member)
    obtain ⟨other, makes⟩ := rule_of_asksFor walked inside asks
    exact last asked member other makes
  · rintro ⟨operation, name, scheme, ⟨before, requirement, after, whole, names, rfl, last⟩, own⟩
    have inside : (operation, requirement) ∈ requirementsOf operations := by
      rw [whole]
      exact List.mem_append_right _ List.mem_cons_self
    obtain ⟨made, makes, isOwn⟩ := rule_of_names walked inside names
    cases isOwn.unique own
    refine ⟨before, (operation, requirement), after, whole, makes, fun asked member other gives => ?_⟩
    exact last asked member (asksFor_of_rule gives)

theorem isSome_iff_claims (walked : (walkPolicy document operations).results = .ok outcomes)
    (key : String) :
    ((SortedDict.ofList (operations.flatMap (operationRules document))).get? key).isSome ↔
      ∃ operation ∈ operations, Claims document operation key := by
  rw [SortedDict.get?_ofList, ← not_iff_not, Bool.not_eq_true, Option.isSome_eq_false_iff,
    Option.isNone_iff_eq_none, SortedDict.lookup_reverse_eq_none_iff]
  constructor
  · rintro absent ⟨operation, stands, requirement, asked, name, scheme, names, rfl⟩
    obtain ⟨rule, inside⟩ := mem_of_names walked stands asked names
    exact absent rule (List.mem_flatMap.2 ⟨operation, stands, inside⟩)
  · intro unclaimed rule member
    obtain ⟨operation, stands, inside⟩ := List.mem_flatMap.1 member
    exact unclaimed ⟨operation, stands, (claims_of_mem inside).1⟩

end Rules

theorem secured_eq_nil_iff (operations : List Resolved) :
    operations.filter Resolved.isSecured = [] ↔
      ∀ operation ∈ operations, operation.security = [] := by
  simp [List.filter_eq_nil_iff, Resolved.isSecured]

end ApiManifest.Generate
