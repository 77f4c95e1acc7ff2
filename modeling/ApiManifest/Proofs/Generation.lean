import Mathlib.Data.List.Basic
import ApiManifest.Generate.Api
import ApiManifest.Generate.AuthConfig
import ApiManifest.Generate.AuthPolicy
import ApiManifest.Generate.HttpRoute
import ApiManifest.Generate.Mesh
import ApiManifest.Generate.RateLimitPolicy
import ApiManifest.Proofs.Resolution

/-!
What each manifest is made of once it could be made. A walk through security requirements that
fails nowhere yields the rules of its steps, operation by operation and requirement by requirement.
-/

namespace ApiManifest.Policy

/-- The rules for authentication, none if the policy leaves them out. -/
def AuthPolicySpec.authentications (spec : AuthPolicySpec) : SortedDict Authentication :=
  (spec.rules.bind AuthRules.authentication).getD .empty

def RateLimitPolicySpec.allLimits (spec : RateLimitPolicySpec) : SortedDict Limit :=
  spec.limits.getD .empty

end ApiManifest.Policy

namespace ApiManifest.Generate

open Gateway Mesh OpenApi Policy
open Resolution (Resolved bind_eq_ok mapM_eq_ok_iff)

theorem isSecured_of_mem {operation : Resolved} {requirement : Requirement}
    (asked : requirement ∈ operation.security) : operation.isSecured = true := by
  unfold Resolved.isSecured
  cases here : operation.security with
  | nil =>
    rw [here] at asked
    cases asked
  | cons first rest => rfl

def stepRule? {ρ : Type} : Except GenerationError (AuthOutcome ρ) → Option ρ
  | .ok outcome => outcome.rule?
  | .error _ => none

section Walks

variable {ρ : Type} {document : Document}
  {settle : Resolved → Demand → Except GenerationError (AuthOutcome ρ)}

theorem filterMap_rule_eq (outcomes : List (AuthOutcome ρ)) :
    outcomes.filterMap AuthOutcome.rule? =
      (outcomes.map (Except.ok : AuthOutcome ρ → Except GenerationError _)).filterMap stepRule? := by
  rw [List.filterMap_map]
  rfl

theorem walkRequirements_rules (operation : Resolved) :
    (walkRequirements document settle operation).filterMap stepRule? =
      operation.security.filterMap (fun requirement =>
        stepRule? (demand document operation requirement >>= settle operation)) := by
  unfold walkRequirements Resolved.isSecured
  cases operation.security with
  | nil => rfl
  | cons first rest =>
    simp only [List.isEmpty_cons, Bool.not_false, Bool.not_true, Bool.false_eq_true, if_false]
    rw [List.filterMap_map]
    rfl

/-- The rules of a walk without failure are those of its operations, in their order. -/
theorem rules_of_results {operations : List Resolved} {outcomes : List (AuthOutcome ρ)}
    (done : (walkSecurity document settle operations).results = .ok outcomes) :
    outcomes.filterMap AuthOutcome.rule? = operations.flatMap (fun operation =>
      operation.security.filterMap (fun requirement =>
        stepRule? (demand document operation requirement >>= settle operation))) := by
  rw [Walk.results_eq_ok_iff] at done
  rw [filterMap_rule_eq, ← done]
  unfold walkSecurity
  rw [List.filterMap_flatMap]
  exact List.flatMap_congr fun operation _ => walkRequirements_rules operation

theorem step_of_results {operations : List Resolved} {outcomes : List (AuthOutcome ρ)}
    (done : (walkSecurity document settle operations).results = .ok outcomes)
    {operation : Resolved} (member : operation ∈ operations) {requirement : Requirement}
    (asked : requirement ∈ operation.security) :
    ∃ outcome, (demand document operation requirement >>= settle operation) = .ok outcome := by
  rw [Walk.results_eq_ok_iff] at done
  have step : (demand document operation requirement >>= settle operation) ∈
      walkSecurity document settle operations := by
    refine List.mem_flatMap.2 ⟨operation, member, ?_⟩
    unfold walkRequirements
    rw [isSecured_of_mem asked]
    exact List.mem_map_of_mem asked
  rw [done] at step
  obtain ⟨outcome, _, same⟩ := List.mem_map.1 step
  exact ⟨outcome, same.symm⟩

end Walks

theorem httpRoute_ok {document : Document} {manifest : HttpRoute}
    (made : httpRoute document = .ok manifest) :
    ∃ identity operations, RouteIdentity.ofDocument document = .ok identity ∧
      Resolution.operations document = .ok operations ∧
      manifest.metadata = identity.metadata ∧
      manifest.spec.rules = Nonempty.list? (operations.map routeRule) := by
  unfold httpRoute at made
  obtain ⟨identity, named, made⟩ := bind_eq_ok made
  obtain ⟨operations, resolved, made⟩ := bind_eq_ok made
  cases made
  exact ⟨identity, operations, named, resolved, rfl, rfl⟩

theorem rateLimitPolicy_ok {document : Document} {manifest : RateLimitPolicy}
    (made : rateLimitPolicy document = .ok manifest) :
    ∃ identity operations, RouteIdentity.ofDocument document = .ok identity ∧
      Resolution.operations document = .ok operations ∧
      manifest.metadata = identity.metadata ∧ manifest.spec.targetRef = identity.targetRef ∧
      manifest.spec.limits = Nonempty.dict? (.ofList (operations.filterMap limit?)) := by
  unfold rateLimitPolicy at made
  obtain ⟨identity, named, made⟩ := bind_eq_ok made
  obtain ⟨operations, resolved, made⟩ := bind_eq_ok made
  cases made
  exact ⟨identity, operations, named, resolved, rfl, rfl, rfl⟩

theorem authPolicy_ok {document : Document} {manifest : AuthPolicy}
    (made : authPolicy document = .ok manifest) :
    ∃ identity operations outcomes, RouteIdentity.ofDocument document = .ok identity ∧
      Resolution.operations document = .ok operations ∧
      (walkPolicy document operations).results = .ok outcomes ∧
      manifest.metadata = identity.metadata ∧ manifest.spec.targetRef = identity.targetRef ∧
      manifest.spec.routeSelectors = Nonempty.list? ((operations.filter Resolved.isSecured).map
        (fun operation => RouteSelector.ofMatch operation.matcher)) ∧
      manifest.spec.rules =
        (Nonempty.dict? (.ofList (outcomes.filterMap AuthOutcome.rule?))).map
          (fun rules => ⟨some rules⟩) := by
  unfold authPolicy at made
  obtain ⟨identity, named, made⟩ := bind_eq_ok made
  obtain ⟨operations, resolved, made⟩ := bind_eq_ok made
  obtain ⟨outcomes, walked, made⟩ := bind_eq_ok made
  cases made
  exact ⟨identity, operations, outcomes, named, resolved, walked, rfl, rfl, rfl, rfl⟩

theorem authentications_eq {spec : AuthPolicySpec} {rules : SortedDict Authentication}
    (written : spec.rules = (Nonempty.dict? rules).map (fun rules => ⟨some rules⟩)) :
    spec.authentications = rules := by
  have bound : spec.rules.bind AuthRules.authentication = Nonempty.dict? rules := by
    rw [written]
    cases Nonempty.dict? rules <;> rfl
  unfold AuthPolicySpec.authentications
  rw [bound, Nonempty.getD_dict?]

theorem allLimits_eq {spec : RateLimitPolicySpec} {limits : SortedDict Limit}
    (written : spec.limits = Nonempty.dict? limits) : spec.allLimits = limits := by
  unfold RateLimitPolicySpec.allLimits
  rw [written, Nonempty.getD_dict?]

theorem virtualService_ok {document : Document} {config : VirtualServiceConfig}
    {manifest : VirtualService} (made : virtualService document config = .ok manifest) :
    ∃ operations, Resolution.operations document = .ok operations ∧
      manifest.spec.http = operations.map config.route := by
  unfold virtualService at made
  obtain ⟨name, _, made⟩ := bind_eq_ok made
  obtain ⟨operations, resolved, made⟩ := bind_eq_ok made
  cases made
  exact ⟨operations, resolved, rfl⟩

theorem authorizationPolicy_ok {document : Document} {config : AuthorizationPolicyConfig}
    {manifest : AuthorizationPolicy}
    (made : authorizationPolicy document config = .ok manifest) :
    ∃ operations, Resolution.operations document = .ok operations ∧
      manifest.spec.rules = (operations.filter Resolved.isSecured).map
        (authorizationRule config.publicHost) := by
  unfold authorizationPolicy at made
  obtain ⟨name, _, made⟩ := bind_eq_ok made
  obtain ⟨operations, resolved, made⟩ := bind_eq_ok made
  cases made
  exact ⟨operations, resolved, rfl⟩

theorem authConfig_ok {document : Document} {publicHost : String} {config : AuthConfig.Config}
    (made : authConfig document publicHost = .ok config) :
    ∃ app operations outcomes, Resolution.operations document = .ok operations ∧
      (walkIdentities document app operations).results = .ok outcomes ∧
      config.spec.identity = outcomes.filterMap AuthOutcome.rule? := by
  unfold authConfig at made
  obtain ⟨app, _, made⟩ := bind_eq_ok made
  obtain ⟨operations, resolved, made⟩ := bind_eq_ok made
  obtain ⟨outcomes, walked, made⟩ := bind_eq_ok made
  cases made
  exact ⟨app, operations, outcomes, resolved, walked, rfl⟩

theorem api_ok {document : Document} {descriptor : Descriptor.Api}
    (made : api document = .ok descriptor) :
    ∃ name pathPrefix, Naming.resourceName document.info.title = .ok name ∧
      document.pathPrefix = .ok pathPrefix ∧
      document.hosts = .ok descriptor.spec.hosts ∧
      descriptor.spec.operations = document.sites.map (describeOperation pathPrefix) ∧
      List.Forall₂ (fun entry scheme => describeScheme entry.1 entry.2 = .ok scheme)
        document.components.securitySchemes.entries descriptor.spec.securitySchemes := by
  unfold api at made
  obtain ⟨name, titled, made⟩ := bind_eq_ok made
  obtain ⟨pathPrefix, located, made⟩ := bind_eq_ok made
  obtain ⟨schemes, described, made⟩ := bind_eq_ok made
  obtain ⟨hosts, found, made⟩ := bind_eq_ok made
  cases made
  exact ⟨name, pathPrefix, titled, located, found, rfl, mapM_eq_ok_iff.1 described⟩

theorem exists_ok_of_map {α β : Type} {made : Except GenerationError α} {view : α → β} {shown : β}
    (seen : made.toOption.map view = some shown) : ∃ value, made = .ok value ∧ view value = shown := by
  cases made with
  | error error => cases seen
  | ok value => exact ⟨value, rfl, Option.some.inj seen⟩

theorem exists_ok_of_isSome {α : Type} {made : Except GenerationError α}
    (there : made.toOption.isSome) : ∃ value, made = .ok value := by
  cases made with
  | error error => cases there
  | ok value => exact ⟨value, rfl⟩

def limitExtension (limit seconds : Int) : Json :=
  .object [("rate_limit", .object [("rates", .array [.object
    [("duration", .int seconds), ("limit", .int limit), ("unit", .string "second")]])])]

def readItem (operation : Operation) : PathItem :=
  ⟨[], some operation, none, none, none, none, none, none, none, none⟩

def petstore : Document where
  version := "3.0.2"
  info := ⟨"Petstore", "1.0.0"⟩
  servers := [⟨"/v1", .empty⟩]
  paths := .ofList [
    ("/pets", readItem ⟨some "listPets", [], none, some (limitExtension 5 10)⟩),
    ("/pets/\x7bid\x7d", readItem ⟨some "showPetById", [.inline ⟨"X-Request-Id", .header, true⟩],
      some [.ofList [("apiKey", [])]], none⟩)]
  components := ⟨.empty, .ofList [("apiKey", ⟨"apiKey", some "header", some "X-Key", none⟩)]⟩
  security := none
  extension := some (.object [("route", .object [("name", .string "petstore")])])

end ApiManifest.Generate
