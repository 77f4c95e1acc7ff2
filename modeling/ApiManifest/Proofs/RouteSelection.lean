import Mathlib.Data.List.Basic
import Mathlib.Data.List.Count
import ApiManifest.Proofs.AuthenticationRules

/-!
The policies of a document attach to its HTTPRoute: they name it, they carry its metadata, and each
of their selectors selects exactly one of its rules. The route and the policies take their matches
from one resolution, in which no match comes twice.
-/

namespace ApiManifest

open Gateway Policy

def Policy.TargetRef.IsRoute (target : TargetRef) (route : HttpRoute) : Prop :=
  target.group = route.kind.group ∧ target.kind = route.kind.kind ∧
    some target.name = route.metadata.name ∧ target.nameSpace = route.metadata.nameSpace

/-- The selector holds a single match, and exactly one of the rules has that match as its only
one. -/
def Policy.RouteSelector.SelectsOne (selector : RouteSelector) (rules : List RouteRule) : Prop :=
  ∃ condition, selector.matchers = some [condition] ∧
    rules.countP (fun rule => rule.matchers = some [condition]) = 1

namespace Generate

open OpenApi (Document)
open Resolution (Resolved)

theorem selectsOne_of_mem {document : Document} {operations : List Resolved}
    (resolved : Resolution.operations document = .ok operations) {operation : Resolved}
    (member : operation ∈ operations) :
    (RouteSelector.ofMatch operation.matcher).SelectsOne (operations.map routeRule) := by
  refine ⟨operation.matcher, rfl, ?_⟩
  have counted : (operations.map Resolved.matcher).count operation.matcher = 1 :=
    List.count_eq_one_of_mem (Resolution.matchers_nodup resolved) (List.mem_map_of_mem member)
  rw [List.count, List.countP_map] at counted
  rw [List.countP_map, ← counted]
  refine List.countP_congr fun other _ => ?_
  simp [routeRule]

/-- How policies belong to a route: they have its metadata and target it, and every selector of
theirs selects exactly one of its rules. Every selector of an authentication rule is also one of
those that send requests through the check at all. -/
structure Attached (route : HttpRoute) (auth : AuthPolicy) (limits : RateLimitPolicy) : Prop where
  authMetadata : auth.metadata = route.metadata
  limitMetadata : limits.metadata = route.metadata
  authTarget : auth.spec.targetRef.IsRoute route
  limitTarget : limits.spec.targetRef.IsRoute route
  routeRule : ∀ rule ∈ route.spec.rules.getD [], ∃ condition, rule.matchers = some [condition]
  checked : ∀ selector ∈ auth.spec.routeSelectors.getD [],
    selector.SelectsOne (route.spec.rules.getD [])
  authRule : ∀ entry ∈ auth.spec.authentications.entries, ∃ selector,
    entry.2.routeSelectors = some [selector] ∧ selector.SelectsOne (route.spec.rules.getD []) ∧
      selector ∈ auth.spec.routeSelectors.getD []
  limit : ∀ entry ∈ limits.spec.allLimits.entries, ∃ selector,
    entry.2.routeSelectors = some [selector] ∧ selector.SelectsOne (route.spec.rules.getD [])

/-- Where the route and both policies can be made, the policies belong to the route. -/
theorem policies_attached {document : Document} {route : HttpRoute} {auth : AuthPolicy}
    {limits : RateLimitPolicy} (routeMade : httpRoute document = .ok route)
    (authMade : authPolicy document = .ok auth)
    (limitsMade : rateLimitPolicy document = .ok limits) : Attached route auth limits := by
  obtain ⟨identity, operations, named, resolved, routeMetadata, routeRules⟩ :=
    httpRoute_ok routeMade
  obtain ⟨authIdentity, authOperations, outcomes, authNamed, authResolved, walked, authMetadata,
    authTarget, selectors, authRules⟩ := authPolicy_ok authMade
  obtain ⟨limitIdentity, limitOperations, limitNamed, limitResolved, limitMetadata, limitTarget,
    limitEntries⟩ := rateLimitPolicy_ok limitsMade
  cases named.symm.trans authNamed
  cases named.symm.trans limitNamed
  cases resolved.symm.trans authResolved
  cases resolved.symm.trans limitResolved
  have target : identity.targetRef.IsRoute route := by
    unfold TargetRef.IsRoute
    rw [routeMetadata]
    exact ⟨rfl, rfl, rfl, rfl⟩
  have rules : route.spec.rules.getD [] = operations.map routeRule := by
    rw [routeRules, Nonempty.getD_list?]
  have checked : auth.spec.routeSelectors.getD [] = (operations.filter Resolved.isSecured).map
      (fun operation => RouteSelector.ofMatch operation.matcher) := by
    rw [selectors, Nonempty.getD_list?]
  refine
    { authMetadata := authMetadata.trans routeMetadata.symm
      limitMetadata := limitMetadata.trans routeMetadata.symm
      authTarget := authTarget ▸ target
      limitTarget := limitTarget ▸ target
      routeRule := fun rule member => ?_
      checked := fun selector member => ?_
      authRule := fun entry member => ?_
      limit := fun entry member => ?_ }
  · rw [rules] at member
    obtain ⟨operation, _, rfl⟩ := List.mem_map.1 member
    exact ⟨operation.matcher, rfl⟩
  · rw [checked] at member
    rw [rules]
    obtain ⟨operation, stands, rfl⟩ := List.mem_map.1 member
    exact selectsOne_of_mem resolved (List.mem_filter.1 stands).1
  · rw [authentications_eq authRules, rules_of_results walked] at member
    obtain ⟨operation, stands, inside⟩ :=
      List.mem_flatMap.1 (SortedDict.mem_of_mem_ofList member)
    obtain ⟨requirement, asked, made⟩ := List.mem_filterMap.1 inside
    obtain ⟨_, _, _, _, own⟩ := names_of_stepRule made
    rw [rules, checked]
    refine ⟨_, own.1, selectsOne_of_mem resolved stands, ?_⟩
    exact List.mem_map.2 ⟨operation, List.mem_filter.2 ⟨stands, isSecured_of_mem asked⟩, rfl⟩
  · rw [allLimits_eq limitEntries] at member
    rw [rules]
    obtain ⟨operation, stands, made⟩ :=
      List.mem_filterMap.1 (SortedDict.mem_of_mem_ofList member)
    obtain ⟨rateLimit, _, rfl⟩ := Option.map_eq_some_iff.1 made
    exact ⟨_, rfl, selectsOne_of_mem resolved stands⟩

theorem petstore_policies_attached : ∃ route auth limits,
    httpRoute petstore = .ok route ∧ authPolicy petstore = .ok auth ∧
    rateLimitPolicy petstore = .ok limits ∧ (route.spec.rules.getD []).length = 2 ∧
    auth.spec.authentications.entries.map Prod.fst = ["showPetById_apiKey"] ∧
    limits.spec.allLimits.entries.map Prod.fst = ["listPets"] ∧ Attached route auth limits := by
  obtain ⟨route, routeMade, size⟩ := exists_ok_of_map
    (show (httpRoute petstore).toOption.map (fun route => (route.spec.rules.getD []).length) =
      some 2 by decide +kernel)
  obtain ⟨auth, authMade, authKeys⟩ := exists_ok_of_map
    (show (authPolicy petstore).toOption.map
      (fun auth => auth.spec.authentications.entries.map Prod.fst) =
      some ["showPetById_apiKey"] by decide +kernel)
  obtain ⟨limits, limitsMade, limitKeys⟩ := exists_ok_of_map
    (show (rateLimitPolicy petstore).toOption.map
      (fun limits => limits.spec.allLimits.entries.map Prod.fst) = some ["listPets"] by
      decide +kernel)
  exact ⟨route, auth, limits, routeMade, authMade, limitsMade, size, authKeys, limitKeys,
    policies_attached routeMade authMade limitsMade⟩

end Generate

end ApiManifest
