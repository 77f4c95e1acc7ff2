import ApiManifest.Proofs.MeshCoverage
import ApiManifest.Proofs.SecurityFailures

/-!
The manifests of a service mesh and the AuthConfig cover the same operations. The rules of the
AuthorizationPolicy are those of the secured operations, among the routes of the VirtualService and
in their order; every identity of the AuthConfig is looked for in the requests of one of these rules,
and a rule has such an identity unless its operation asks for nothing. The top-level selectors of an
AuthPolicy go with the same rules, one with each.
-/

namespace ApiManifest

namespace Mesh

def StringMatch.text : StringMatch → String
  | .exact value => value
  | .leading value => value
  | .regex value => value

/-- The methods and paths that a route is for, whether it takes a path alone or all below it. -/
def ServiceRoute.requests (route : ServiceRoute) : List Request :=
  route.matchers.filterMap (fun condition =>
    match condition.method, condition.uri with
    | some method, some uri => some ⟨method.text, uri.text⟩
    | _, _ => none)

def AuthorizationRule.requests (rule : AuthorizationRule) : List Request :=
  rule.targets.flatMap (fun target => target.operation.methods.flatMap (fun method =>
    target.operation.paths.map (fun path => ⟨method, path⟩)))

end Mesh

/-- The identity is looked for in requests with exactly that path and that method. -/
def AuthConfig.Identity.IsFor (identity : AuthConfig.Identity) (request : Mesh.Request) : Prop :=
  identity.conditions = [.equals Generate.pathSelector request.path,
    .equals Generate.methodSelector request.method]

def Policy.RouteSelector.IsFor (selector : Policy.RouteSelector) (pathPrefix : String)
    (request : Mesh.Request) : Prop :=
  ∃ condition method, selector.matchers = some [condition] ∧
    condition.path.bind Gateway.PathMatch.value = some (pathPrefix ++ request.path) ∧
    condition.method = some method ∧ method.name = request.method

namespace Generate

open AuthConfig (Identity)
open Mesh
open OpenApi (Document Requirement)
open Policy (RouteSelector)
open RequestMatch (Site)
open Resolution (Resolved bind_eq_ok enabledSites operations_eq_records record siteKey)

def requestOf (site : Site) : Request :=
  ⟨site.method.name, site.path⟩

def securedSites (document : Document) : List Site :=
  (enabledSites document).filter (fun site =>
    !(site.operation.effectiveSecurity document).isEmpty)

theorem securedSites_sublist (document : Document) :
    List.Sublist (securedSites document) (enabledSites document) :=
  List.filter_sublist

theorem secured_eq_records {document : Document} {operations : List Resolved}
    (resolved : Resolution.operations document = .ok operations) :
    operations.filter Resolved.isSecured = (securedSites document).map (record document) := by
  rw [operations_eq_records resolved, List.filter_map]
  rfl

theorem rules_requests {document : Document} {config : AuthorizationPolicyConfig}
    {policy : AuthorizationPolicy} (guarded : authorizationPolicy document config = .ok policy) :
    policy.spec.rules.map AuthorizationRule.requests =
      (securedSites document).map (fun site => [requestOf site]) := by
  obtain ⟨operations, resolved, rules⟩ := authorizationPolicy_ok guarded
  rw [rules, secured_eq_records resolved, List.map_map, List.map_map]
  rfl

theorem routes_requests {document : Document} {config : VirtualServiceConfig}
    {service : VirtualService} (served : virtualService document config = .ok service) :
    service.spec.http.map ServiceRoute.requests =
      (enabledSites document).map (fun site => [requestOf site]) := by
  obtain ⟨operations, resolved, routes⟩ := virtualService_ok served
  rw [routes, operations_eq_records resolved, List.map_map, List.map_map]
  refine List.map_congr_left fun site _ => ?_
  unfold Function.comp VirtualServiceConfig.route ServiceRoute.requests
  cases config.pathPrefixMatch <;> rfl

theorem requests_nodup (document : Document) :
    ((securedSites document).map (fun site => [requestOf site])).Nodup := by
  have keys : ((securedSites document).map siteKey).Nodup :=
    (Resolution.sites_keys_nodup document).sublist
      (((securedSites_sublist document).trans List.filter_sublist).map siteKey)
  refine List.pairwise_map.2 ((List.pairwise_map.1 keys).imp fun {left right} different same => ?_)
  simp only [requestOf, List.cons.injEq, Request.mk.injEq, and_true] at same
  exact different (Prod.ext same.2 (Resolution.methodName_injective same.1))

section Identities

variable {document : Document} {app : String} {operation : Resolved} {requirement : Requirement}

theorem isFor_of_step {identity : Identity}
    (made : stepRule? (demand document operation requirement >>= settleIdentity app operation) =
      some identity) : identity.IsFor ⟨operation.method.name, operation.path⟩ := by
  cases wanted : demand document operation requirement with
  | error error =>
    rw [wanted] at made
    cases made
  | ok demanded =>
    rw [wanted] at made
    change stepRule? (settleIdentity app operation demanded) = some identity at made
    cases demanded with
    | anonymous => cases made
    | undeclared scheme => cases made
    | declared scheme meaning =>
      cases meaning with
      | unsupported kind => cases made
      | apiKey location key =>
        cases made
        rfl
      | openIdConnect url =>
        cases made
        rfl

theorem identity_of_step {outcome : AuthOutcome Identity} (named : requirement.keys ≠ [])
    (passes : (demand document operation requirement >>= settleIdentity app operation) =
      .ok outcome) :
    ∃ identity,
      stepRule? (demand document operation requirement >>= settleIdentity app operation) =
        some identity := by
  obtain ⟨demanded, wanted, settled⟩ := bind_eq_ok passes
  rw [passes]
  cases demanded with
  | anonymous =>
    cases demand_eq_iff.1 wanted with
    | anyone free => exact absurd free named
  | undeclared scheme => cases settled
  | declared scheme meaning =>
    cases meaning with
    | unsupported kind => cases settled
    | apiKey location key =>
      cases settled
      exact ⟨_, rfl⟩
    | openIdConnect url =>
      cases settled
      exact ⟨_, rfl⟩

end Identities

theorem site_of_identity {document : Document} {publicHost : String} {config : AuthConfig.Config}
    (made : authConfig document publicHost = .ok config) {identity : Identity}
    (member : identity ∈ config.spec.identity) :
    ∃ site ∈ securedSites document, identity.IsFor (requestOf site) := by
  obtain ⟨app, operations, outcomes, resolved, walked, identities⟩ := authConfig_ok made
  rw [identities, rules_of_results walked, operations_eq_records resolved] at member
  obtain ⟨operation, stands, inside⟩ := List.mem_flatMap.1 member
  obtain ⟨requirement, asked, settled⟩ := List.mem_filterMap.1 inside
  obtain ⟨site, enabled, rfl⟩ := List.mem_map.1 stands
  have secured : (record document site).isSecured = true := isSecured_of_mem asked
  exact ⟨site, List.mem_filter.2 ⟨enabled, secured⟩, isFor_of_step settled⟩

theorem identity_of_site {document : Document} {publicHost : String} {config : AuthConfig.Config}
    (made : authConfig document publicHost = .ok config) {site : Site}
    (stands : site ∈ securedSites document) {requirement : Requirement}
    (asked : requirement ∈ site.operation.effectiveSecurity document)
    (named : requirement.keys ≠ []) :
    ∃ identity ∈ config.spec.identity, identity.IsFor (requestOf site) := by
  obtain ⟨app, operations, outcomes, resolved, walked, identities⟩ := authConfig_ok made
  have member : record document site ∈ operations := by
    rw [operations_eq_records resolved]
    exact List.mem_map_of_mem ((securedSites_sublist document).mem stands)
  obtain ⟨outcome, passes⟩ := step_of_results walked member asked
  obtain ⟨identity, settled⟩ := identity_of_step named passes
  refine ⟨identity, ?_, isFor_of_step settled⟩
  rw [identities, rules_of_results walked]
  exact List.mem_flatMap.2 ⟨_, member, List.mem_filterMap.2 ⟨requirement, asked, settled⟩⟩

theorem rules_identified {document : Document} {policyConfig : AuthorizationPolicyConfig}
    {publicHost : String} {policy : AuthorizationPolicy} {config : AuthConfig.Config}
    (guarded : authorizationPolicy document policyConfig = .ok policy)
    (made : authConfig document publicHost = .ok config) :
    List.Forall₂ (fun site rule =>
      (∃ requirement ∈ site.operation.effectiveSecurity document, requirement.keys ≠ []) →
        ∃ identity ∈ config.spec.identity, ∃ request, rule.requests = [request] ∧
          identity.IsFor request) (securedSites document) policy.spec.rules := by
  have aligned := (rules_requests guarded).symm
  rw [← List.forall₂_eq_eq_eq, List.forall₂_map_left_iff, List.forall₂_map_right_iff] at aligned
  have identities : ∀ site ∈ securedSites document,
      (∃ requirement ∈ site.operation.effectiveSecurity document, requirement.keys ≠ []) →
        ∃ identity ∈ config.spec.identity, identity.IsFor (requestOf site) :=
    fun site stands ⟨requirement, asked, named⟩ => identity_of_site made stands asked named
  refine ((List.forall₂_and_left _ _).2 ⟨identities, aligned⟩).imp ?_
  intro site rule ⟨identified, lists⟩ asks
  obtain ⟨identity, member, isFor⟩ := identified asks
  exact ⟨identity, member, requestOf site, lists.symm, isFor⟩

/-- The top-level selectors of an AuthPolicy and the rules of an AuthorizationPolicy are made for
the same operations. -/
theorem selectors_with_rules {document : Document} {config : AuthorizationPolicyConfig}
    {policy : AuthorizationPolicy} {auth : Policy.AuthPolicy}
    (guarded : authorizationPolicy document config = .ok policy)
    (written : authPolicy document = .ok auth) :
    ∃ pathPrefix, document.pathPrefix = .ok pathPrefix ∧
      List.Forall₂ (fun selector rule => ∃ request, rule.requests = [request] ∧
        selector.IsFor pathPrefix request)
        (auth.spec.routeSelectors.getD []) policy.spec.rules := by
  obtain ⟨operations, resolved, rules⟩ := authorizationPolicy_ok guarded
  obtain ⟨_, others, _, _, again, _, _, _, selectors, _⟩ := authPolicy_ok written
  cases resolved.symm.trans again
  obtain ⟨pathPrefix, located, matchers⟩ := Resolution.matcher_of_mem resolved
  refine ⟨pathPrefix, located, ?_⟩
  rw [rules, selectors, Nonempty.getD_list?, List.forall₂_map_left_iff,
    List.forall₂_map_right_iff, List.forall₂_same]
  intro operation member
  obtain ⟨path, method⟩ := matchers operation (List.mem_filter.1 member).1
  refine ⟨⟨operation.method.name, operation.path⟩, rfl, operation.matcher, operation.method, rfl,
    ?_, method, rfl⟩
  rw [path]
  rfl

/-- How the manifests of a service mesh and an AuthConfig belong together: the rules are those of
the secured operations, among the routes and each another one; every identity is for the requests of
a rule, and a rule has an identity unless its operation asks for nothing. -/
structure CoverAlike (document : Document) (service : VirtualService)
    (policy : AuthorizationPolicy) (config : AuthConfig.Config) : Prop where
  rules : policy.spec.rules.map AuthorizationRule.requests =
    (securedSites document).map (fun site => [requestOf site])
  routes : List.Sublist (policy.spec.rules.map AuthorizationRule.requests)
    (service.spec.http.map ServiceRoute.requests)
  distinct : (policy.spec.rules.map AuthorizationRule.requests).Nodup
  checked : ∀ identity ∈ config.spec.identity, ∃ rule ∈ policy.spec.rules, ∃ request,
    rule.requests = [request] ∧ identity.IsFor request
  identified : List.Forall₂ (fun site rule =>
    (∃ requirement ∈ site.operation.effectiveSecurity document, requirement.keys ≠ []) →
      ∃ identity ∈ config.spec.identity, ∃ request, rule.requests = [request] ∧
        identity.IsFor request) (securedSites document) policy.spec.rules

end Generate

end ApiManifest
