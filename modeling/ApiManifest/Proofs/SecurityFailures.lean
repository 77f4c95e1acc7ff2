import ApiManifest.Proofs.AuthenticationRules
import ApiManifest.Proofs.FirstFailure

/-!
Which requirement keeps a manifest from being made. A requirement for several schemes at once is
refused, and so is one for a declared scheme that lacks what its type asks for; an AuthConfig also
refuses schemes that are not declared or that no identity can express. The failure reported is that
of the first refused requirement, operation by operation, and where none is refused the manifest is
made.
-/

namespace ApiManifest.Generate

open OpenApi (Document Requirement SecurityScheme)
open RequestMatch (Site)
open Resolution (Resolved enabledSites operations_eq_records record)

/-- Why no manifest is made that must meet the requirement of an operation. -/
inductive Refused (document : Document) (operation : Resolved) (requirement : Requirement) :
    GenerationError → Prop
  | combined (several : 2 ≤ requirement.keys.length) :
      Refused document operation requirement
        (.unsupportedRequirement operation.name requirement.keys)
  | invalid {name : String} {scheme : SecurityScheme} {fault : SchemeFault}
      (alone : requirement.keys = [name])
      (declared : document.components.securitySchemes.get? name = some scheme)
      (lacks : Lacks scheme fault) :
      Refused document operation requirement (.invalidScheme name fault)

inductive RefusedByConfig (document : Document) (operation : Resolved)
    (requirement : Requirement) : GenerationError → Prop
  | refused {error : GenerationError} (anyway : Refused document operation requirement error) :
      RefusedByConfig document operation requirement error
  | undeclared {name : String} (alone : requirement.keys = [name])
      (absent : document.components.securitySchemes.get? name = none) :
      RefusedByConfig document operation requirement (.undeclaredScheme operation.name name)
  | unsupported {name : String} {scheme : SecurityScheme} (alone : requirement.keys = [name])
      (declared : document.components.securitySchemes.get? name = some scheme)
      (notKey : scheme.kind ≠ "apiKey") (notIssuer : scheme.kind ≠ "openIdConnect") :
      RefusedByConfig document operation requirement (.unsupportedScheme name scheme.kind)

/-! ### Steps of the two walks -/

section Steps

variable {document : Document} {operation : Resolved} {requirement : Requirement}

theorem keys_le_one_of_step {ρ : Type} {next : Demand → Except GenerationError ρ} {result : ρ}
    (passes : (demand document operation requirement >>= next) = .ok result) :
    requirement.keys.length ≤ 1 := by
  by_contra several
  rw [demand_of_several (by omega)] at passes
  cases passes

theorem demand_eq_error_iff (error : GenerationError) :
    demand document operation requirement = .error error ↔
      Refused document operation requirement error := by
  rw [demand_eq_iff]
  constructor
  · intro asks
    cases asks with
    | combined several => exact .combined several
    | invalid alone declared lacks => exact .invalid alone declared lacks
  · intro refused
    cases refused with
    | combined several => exact .combined several
    | invalid alone declared lacks => exact .invalid alone declared lacks

end Steps

theorem settlePolicy_ok (operation : Resolved) (demanded : Demand) :
    ∃ outcome, settlePolicy operation demanded = .ok outcome := by
  cases demanded with
  | anonymous => exact ⟨_, rfl⟩
  | undeclared scheme => exact ⟨_, rfl⟩
  | declared scheme meaning => cases meaning <;> exact ⟨_, rfl⟩

/-- The walk of rules fails where a requirement is refused. -/
theorem policyStep_eq_error_iff (document : Document) (operation : Resolved)
    (requirement : Requirement) (error : GenerationError) :
    (demand document operation requirement >>= settlePolicy operation) = .error error ↔
      Refused document operation requirement error := by
  rw [bind_eq_error_iff, demand_eq_error_iff]
  refine or_iff_left ?_
  rintro ⟨demanded, _, failed⟩
  obtain ⟨outcome, settled⟩ := settlePolicy_ok operation demanded
  cases settled.symm.trans failed

/-- The walk of identities fails there too, and where a scheme is not declared or not supported. -/
theorem identityStep_eq_error_iff (document : Document) (app : String) (operation : Resolved)
    (requirement : Requirement) (error : GenerationError) :
    (demand document operation requirement >>= settleIdentity app operation) = .error error ↔
      RefusedByConfig document operation requirement error := by
  rw [bind_eq_error_iff, demand_eq_error_iff]
  constructor
  · rintro (refused | ⟨demanded, wanted, failed⟩)
    · exact .refused refused
    · cases demand_eq_iff.1 wanted with
      | anyone free => cases failed
      | undeclared alone absent =>
        cases failed
        exact .undeclared alone absent
      | declared alone declared means =>
        cases means with
        | apiKey kind given keyName filled => cases failed
        | openIdConnect kind given filled => cases failed
        | unsupported notKey notIssuer =>
          cases failed
          exact .unsupported alone declared notKey notIssuer
  · intro refused
    cases refused with
    | refused anyway => exact Or.inl anyway
    | undeclared alone absent =>
      exact Or.inr ⟨_, demand_eq_iff.2 (.undeclared alone absent), rfl⟩
    | unsupported alone declared notKey notIssuer =>
      exact Or.inr ⟨_, demand_eq_iff.2 (.declared alone declared (.unsupported notKey notIssuer)), rfl⟩

/-! ### The first refused requirement -/

def requirementsOf (operations : List Resolved) : List (Resolved × Requirement) :=
  operations.flatMap (fun operation =>
    operation.security.map (fun requirement => (operation, requirement)))

def FirstRefused (refused : Resolved → Requirement → GenerationError → Prop)
    (operations : List Resolved) (error : GenerationError) : Prop :=
  ∃ before operation requirement after,
    requirementsOf operations = before ++ (operation, requirement) :: after ∧
      refused operation requirement error ∧
      ∀ earlier ∈ before, ∀ other, ¬ refused earlier.1 earlier.2 other

theorem walkSecurity_failure {ρ : Type} (document : Document)
    (settle : Resolved → Demand → Except GenerationError (AuthOutcome ρ))
    (operations : List Resolved) :
    failure? (walkSecurity document settle operations).results =
      (requirementsOf operations).findSome? (fun asked =>
        failure? (demand document asked.1 asked.2 >>= settle asked.1)) := by
  unfold walkSecurity requirementsOf
  rw [failure?_results, findSome?_flatMap, findSome?_flatMap]
  refine congrArg (List.findSome? · operations) (funext fun operation => ?_)
  unfold walkRequirements Resolved.isSecured
  cases operation.security with
  | nil => rfl
  | cons first rest =>
    rw [List.findSome?_map]
    simp only [List.isEmpty_cons, Bool.not_false, Bool.not_true, Bool.false_eq_true, if_false]
    rw [List.findSome?_map]
    rfl

theorem walkSecurity_eq_error_iff {ρ : Type} {document : Document}
    {settle : Resolved → Demand → Except GenerationError (AuthOutcome ρ)}
    {refused : Resolved → Requirement → GenerationError → Prop}
    (steps : ∀ operation requirement error,
      (demand document operation requirement >>= settle operation) = .error error ↔
        refused operation requirement error)
    (operations : List Resolved) (error : GenerationError) :
    (walkSecurity document settle operations).results = .error error ↔
      FirstRefused refused operations error := by
  have passes : ∀ asked : Resolved × Requirement,
      failure? (demand document asked.1 asked.2 >>= settle asked.1) = none ↔
        ∀ other, ¬ refused asked.1 asked.2 other := by
    intro asked
    rw [Option.eq_none_iff_forall_ne_some]
    exact forall_congr' fun other => not_congr (failure?_eq_some_iff.trans (steps _ _ _))
  rw [← failure?_eq_some_iff, walkSecurity_failure, List.findSome?_eq_some_iff]
  constructor
  · rintro ⟨before, ⟨operation, requirement⟩, after, stands, failed, earlier⟩
    exact ⟨before, operation, requirement, after, stands,
      (steps _ _ _).1 (failure?_eq_some_iff.1 failed),
      fun asked member => (passes asked).1 (earlier asked member)⟩
  · rintro ⟨before, operation, requirement, after, stands, refuses, earlier⟩
    exact ⟨before, (operation, requirement), after, stands,
      failure?_eq_some_iff.2 ((steps _ _ _).2 refuses),
      fun asked member => (passes asked).2 (earlier asked member)⟩

theorem walkSecurity_ok_iff {ρ : Type} {document : Document}
    {settle : Resolved → Demand → Except GenerationError (AuthOutcome ρ)}
    {refused : Resolved → Requirement → GenerationError → Prop}
    (steps : ∀ operation requirement error,
      (demand document operation requirement >>= settle operation) = .error error ↔
        refused operation requirement error)
    (operations : List Resolved) :
    (∃ outcomes, (walkSecurity document settle operations).results = .ok outcomes) ↔
      ∀ operation ∈ operations, ∀ requirement ∈ operation.security, ∀ error,
        ¬ refused operation requirement error := by
  rw [← failure?_eq_none_iff, walkSecurity_failure, List.findSome?_eq_none_iff]
  constructor
  · intro passes operation stands requirement asked error refuses
    have inside : (operation, requirement) ∈ requirementsOf operations :=
      List.mem_flatMap.2 ⟨operation, stands, List.mem_map_of_mem asked⟩
    have failed := failure?_eq_some_iff.2 ((steps _ _ _).2 refuses)
    rw [passes _ inside] at failed
    cases failed
  · intro passes asked inside
    obtain ⟨operation, stands, inside⟩ := List.mem_flatMap.1 inside
    obtain ⟨requirement, asked, rfl⟩ := List.mem_map.1 inside
    cases failed : failure? (demand document operation requirement >>= settle operation) with
    | none => rfl
    | some error =>
      have refuses := (steps _ _ _).1 (failure?_eq_some_iff.1 failed)
      exact absurd refuses (passes operation stands requirement asked error)

/-- A manifest fails with the error of the first refused requirement, and is made where none is
refused. -/
structure FailsAtFirst {μ : Type} (made : Except GenerationError μ)
    (refused : Resolved → Requirement → GenerationError → Prop) (operations : List Resolved) :
    Prop where
  error : ∀ error, made = .error error ↔ FirstRefused refused operations error
  ok : (∃ manifest, made = .ok manifest) ↔
    ∀ operation ∈ operations, ∀ requirement ∈ operation.security, ∀ error,
      ¬ refused operation requirement error

theorem failsAtFirst_of_walk {μ ρ : Type} {made : Except GenerationError μ} {document : Document}
    {settle : Resolved → Demand → Except GenerationError (AuthOutcome ρ)}
    {refused : Resolved → Requirement → GenerationError → Prop} {operations : List Resolved}
    (same : failure? made = failure? (walkSecurity document settle operations).results)
    (steps : ∀ operation requirement error,
      (demand document operation requirement >>= settle operation) = .error error ↔
        refused operation requirement error) : FailsAtFirst made refused operations where
  error error := by
    rw [← failure?_eq_some_iff, same, failure?_eq_some_iff, walkSecurity_eq_error_iff steps]
  ok := by
    rw [← failure?_eq_none_iff, same, failure?_eq_none_iff, walkSecurity_ok_iff steps]

theorem authPolicy_failure {document : Document} {route : RouteIdentity}
    {operations : List Resolved} (named : RouteIdentity.ofDocument document = .ok route)
    (resolved : Resolution.operations document = .ok operations) :
    failure? (authPolicy document) = failure? (walkPolicy document operations).results := by
  unfold authPolicy
  rw [named, resolved]
  simp only [bind, Except.bind]
  cases (walkPolicy document operations).results <;> rfl

theorem authConfig_failure {document : Document} {name : String} {operations : List Resolved}
    (titled : Naming.resourceName document.info.title = .ok name)
    (resolved : Resolution.operations document = .ok operations) (publicHost : String) :
    failure? (authConfig document publicHost) =
      failure? (walkIdentities document name operations).results := by
  unfold authConfig
  rw [titled, resolved]
  simp only [bind, Except.bind]
  cases (walkIdentities document name operations).results <;> rfl

theorem authPolicy_failsAtFirst {document : Document} {route : RouteIdentity}
    {operations : List Resolved} (named : RouteIdentity.ofDocument document = .ok route)
    (resolved : Resolution.operations document = .ok operations) :
    FailsAtFirst (authPolicy document) (Refused document) operations :=
  failsAtFirst_of_walk (authPolicy_failure named resolved) (policyStep_eq_error_iff document)

theorem authConfig_failsAtFirst {document : Document} {name : String} {operations : List Resolved}
    (titled : Naming.resourceName document.info.title = .ok name)
    (resolved : Resolution.operations document = .ok operations) (publicHost : String) :
    FailsAtFirst (authConfig document publicHost) (RefusedByConfig document) operations :=
  failsAtFirst_of_walk (authConfig_failure titled resolved publicHost)
    (identityStep_eq_error_iff document name)

theorem keys_le_one_of_walk {ρ : Type} {document : Document}
    {settle : Resolved → Demand → Except GenerationError (AuthOutcome ρ)}
    {operations : List Resolved} {outcomes : List (AuthOutcome ρ)}
    (resolved : Resolution.operations document = .ok operations)
    (walked : (walkSecurity document settle operations).results = .ok outcomes) {site : Site}
    (enabled : site ∈ enabledSites document) {requirement : Requirement}
    (asked : requirement ∈ site.operation.effectiveSecurity document) :
    requirement.keys.length ≤ 1 := by
  have stands : record document site ∈ operations := by
    rw [operations_eq_records resolved]
    exact List.mem_map_of_mem enabled
  obtain ⟨outcome, passes⟩ := step_of_results walked stands asked
  exact keys_le_one_of_step passes

/-- An AuthPolicy and an AuthConfig each fail at the first requirement that they refuse, going
through the enabled operations with what they require or inherit, and none of them is made where one
of these requirements is for several schemes at once. -/
theorem first_refused_requirement_reported {document : Document} {operations : List Resolved}
    (resolved : Resolution.operations document = .ok operations) :
    operations = (enabledSites document).map (record document) ∧
    (∀ route, RouteIdentity.ofDocument document = .ok route →
      FailsAtFirst (authPolicy document) (Refused document) operations) ∧
    (∀ name, Naming.resourceName document.info.title = .ok name → ∀ publicHost,
      FailsAtFirst (authConfig document publicHost) (RefusedByConfig document) operations) ∧
    (∀ publicHost, ((∃ policy, authPolicy document = .ok policy) ∨
        ∃ config, authConfig document publicHost = .ok config) →
      ∀ site ∈ enabledSites document,
        ∀ requirement ∈ site.operation.effectiveSecurity document,
          requirement.keys.length ≤ 1) ∧
    ∀ name scheme error, Security.classify name scheme = .error error ↔
      ∃ fault, Lacks scheme fault ∧ error = .invalidScheme name fault := by
  refine ⟨operations_eq_records resolved,
    fun route named => authPolicy_failsAtFirst named resolved,
    fun name titled publicHost => authConfig_failsAtFirst titled resolved publicHost, ?_,
    fun name scheme error => ⟨fun refused => ?_, ?_⟩⟩
  · rintro publicHost (⟨policy, made⟩ | ⟨config, made⟩) site enabled requirement asked
    · obtain ⟨_, _, _, _, again, walked, _⟩ := authPolicy_ok made
      exact keys_le_one_of_walk again walked enabled asked
    · obtain ⟨_, _, _, again, walked, _⟩ := authConfig_ok made
      exact keys_le_one_of_walk again walked enabled asked
  · cases classify_eq_iff.1 refused with
    | invalid lacks => exact ⟨_, lacks, rfl⟩
  · rintro ⟨fault, lacks, rfl⟩
    exact classify_of_lacks name lacks

def demandingShop : Document where
  version := "3.0.2"
  info := ⟨"Demanding Shop", "1.0.0"⟩
  servers := []
  paths := .ofList [
    ("/pets", readItem ⟨some "listPets", [], some [.empty, .ofList [("oauth", [])]], none⟩),
    ("/pets/\x7bid\x7d", readItem ⟨some "showPetById", [], none, none⟩)]
  components := ⟨.empty, .ofList [("apiKey", ⟨"apiKey", some "header", some "X-Key", none⟩)]⟩
  security := some [.ofList [("oidc", []), ("apiKey", [])]]
  extension := some (.object [("route", .object [("name", .string "shop")])])

theorem demandingShop_refused : ∃ route name operations,
    RouteIdentity.ofDocument demandingShop = .ok route ∧
    Naming.resourceName demandingShop.info.title = .ok name ∧
    Resolution.operations demandingShop = .ok operations ∧
    FirstRefused (Refused demandingShop) operations
      (.unsupportedRequirement "showPetById" ["oidc", "apiKey"]) ∧
    FirstRefused (RefusedByConfig demandingShop) operations
      (.undeclaredScheme "listPets" "oauth") := by
  obtain ⟨route, named⟩ := exists_ok_of_isSome
    (show (RouteIdentity.ofDocument demandingShop).toOption.isSome by decide +kernel)
  obtain ⟨name, titled⟩ := exists_ok_of_isSome
    (show (Naming.resourceName demandingShop.info.title).toOption.isSome by decide +kernel)
  obtain ⟨operations, resolved⟩ := exists_ok_of_isSome
    (show (Resolution.operations demandingShop).toOption.isSome by decide +kernel)
  obtain ⟨_, policy, config, _⟩ := first_refused_requirement_reported resolved
  have policyFails : failure? (authPolicy demandingShop) =
      some (.unsupportedRequirement "showPetById" ["oidc", "apiKey"]) := by decide +kernel
  have configFails : failure? (authConfig demandingShop "api.example.com") =
      some (.undeclaredScheme "listPets" "oauth") := by decide +kernel
  exact ⟨route, name, operations, named, titled, resolved,
    ((policy route named).error _).1 (failure?_eq_some_iff.1 policyFails),
    ((config name titled _).error _).1 (failure?_eq_some_iff.1 configFails)⟩

end ApiManifest.Generate
