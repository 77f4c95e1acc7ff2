import Mathlib.Data.List.Basic
import ApiManifest.Proofs.Generation

/-!
Which requests that a VirtualService sends to a secured operation an AuthorizationPolicy has checked.
Where routes take exact paths, all of them. Where routes also take the paths that begin with theirs,
only those requests whose own path is the path of a secured operation with that verb: the rules of an
AuthorizationPolicy list paths and nothing below them.
-/

namespace ApiManifest.Mesh

structure Request where
  method : String
  path : String
  deriving DecidableEq

/-- Whether a text is taken. What regular expressions take is left open: no route that is made for a
document holds one. -/
def StringMatch.takes : StringMatch → String → Bool
  | .exact value, text => text = value
  | .leading value, text => value.toList.isPrefixOf text.toList
  | .regex _, _ => false

def RequestMatch.takes (condition : RequestMatch) (request : Request) : Bool :=
  condition.uri.all (fun uri => uri.takes request.path)
    && condition.method.all (fun method => method.takes request.method)

def ServiceRoute.takes (route : ServiceRoute) (request : Request) : Bool :=
  route.matchers.isEmpty || route.matchers.any (fun condition => condition.takes request)

/-- The number of the route that a request goes, which is the first one that takes it. -/
def VirtualServiceSpec.routeOf? (spec : VirtualServiceSpec) (request : Request) : Option Nat :=
  spec.http.findIdx? (fun route => route.takes request)

def AuthorizationRule.takes (rule : AuthorizationRule) (request : Request) : Bool :=
  rule.targets.any (fun target => target.operation.methods.contains request.method
    && target.operation.paths.contains request.path)

end ApiManifest.Mesh

namespace ApiManifest.Generate

open Mesh
open OpenApi (Document)
open Resolution (Resolved)

theorem route_takes_exact {config : VirtualServiceConfig} (exactly : config.pathPrefixMatch = false)
    (operation : Resolved) (request : Request) :
    (config.route operation).takes request = true ↔
      request.path = operation.path ∧ request.method = operation.method.name := by
  simp [VirtualServiceConfig.route, exactly, ServiceRoute.takes, Mesh.RequestMatch.takes,
    StringMatch.takes]

theorem authorizationRule_takes (publicHost : String) (operation : Resolved) (request : Request) :
    (authorizationRule publicHost operation).takes request = true ↔
      request.path = operation.path ∧ request.method = operation.method.name := by
  simp [authorizationRule, AuthorizationRule.takes, and_comm]

theorem checked_iff {document : Document} {config : AuthorizationPolicyConfig}
    {policy : AuthorizationPolicy} {operations : List Resolved}
    (guarded : authorizationPolicy document config = .ok policy)
    (resolved : Resolution.operations document = .ok operations) (request : Request) :
    (∃ rule ∈ policy.spec.rules, rule.takes request = true) ↔
      ∃ operation ∈ operations, operation.isSecured = true ∧
        request.path = operation.path ∧ request.method = operation.method.name := by
  obtain ⟨others, resolved', rules⟩ := authorizationPolicy_ok guarded
  cases resolved.symm.trans resolved'
  rw [rules]
  constructor
  · rintro ⟨rule, member, takes⟩
    obtain ⟨operation, kept, rfl⟩ := List.mem_map.1 member
    obtain ⟨stands, secured⟩ := List.mem_filter.1 kept
    exact ⟨operation, stands, secured, (authorizationRule_takes _ _ _).1 takes⟩
  · rintro ⟨operation, stands, secured, same⟩
    refine ⟨_, List.mem_map_of_mem (List.mem_filter.2 ⟨stands, secured⟩), ?_⟩
    exact (authorizationRule_takes _ _ _).2 same

/-- The route that a request goes was made for the operation of the same number, and takes it. -/
theorem takes_of_routeOf {document : Document} {config : VirtualServiceConfig}
    {service : VirtualService} {operations : List Resolved}
    (served : virtualService document config = .ok service)
    (resolved : Resolution.operations document = .ok operations) {request : Request} {number : Nat}
    (goes : service.spec.routeOf? request = some number) {operation : Resolved}
    (stands : operations[number]? = some operation) :
    (config.route operation).takes request = true := by
  obtain ⟨others, resolved', routes⟩ := virtualService_ok served
  cases resolved.symm.trans resolved'
  unfold VirtualServiceSpec.routeOf? at goes
  rw [routes, List.findIdx?_eq_some_iff_getElem] at goes
  obtain ⟨inside, takes, _⟩ := goes
  rw [List.getElem_map] at takes
  have bound : number < operations.length := by simpa using inside
  rw [List.getElem?_eq_getElem bound] at stands
  cases stands
  exact takes

/-- A request that goes to a secured operation is checked if routes take exact paths, and otherwise
exactly if its own path and method are those of a secured operation. -/
theorem secured_request_checked {document : Document} {serviceConfig : VirtualServiceConfig}
    {policyConfig : AuthorizationPolicyConfig} {service : VirtualService}
    {policy : AuthorizationPolicy} {operations : List Resolved}
    (served : virtualService document serviceConfig = .ok service)
    (guarded : authorizationPolicy document policyConfig = .ok policy)
    (resolved : Resolution.operations document = .ok operations) {request : Request} {number : Nat}
    (goes : service.spec.routeOf? request = some number) {operation : Resolved}
    (stands : operations[number]? = some operation) (secured : operation.isSecured = true) :
    (serviceConfig.pathPrefixMatch = false →
      ∃ rule ∈ policy.spec.rules, rule.takes request = true) ∧
    (serviceConfig.pathPrefixMatch = true →
      ((∃ rule ∈ policy.spec.rules, rule.takes request = true) ↔
        ∃ other ∈ operations, other.isSecured = true ∧
          request.path = other.path ∧ request.method = other.method.name)) := by
  refine ⟨fun exactly => ?_, fun _ => checked_iff guarded resolved request⟩
  have takes := takes_of_routeOf served resolved goes stands
  have same := (route_takes_exact exactly operation request).1 takes
  exact (checked_iff guarded resolved request).2
    ⟨operation, List.mem_of_getElem? stands, secured, same⟩

def petstoreService (pathPrefixMatch : Bool) : VirtualServiceConfig where
  publicHost := "petstore.example.com"
  serviceName := "petstore"
  serviceNamespace := "apps"
  servicePort := defaultServicePort
  gateways := ["istio-system/ingress"]
  pathPrefixMatch := pathPrefixMatch

def petstoreGateway : AuthorizationPolicyConfig where
  publicHost := "petstore.example.com"
  gatewayLabels := .ofList [("istio", "ingressgateway")]

theorem petstore_request_checked : ∃ service policy listPets showPetById,
    virtualService petstore (petstoreService false) = .ok service ∧
    authorizationPolicy petstore petstoreGateway = .ok policy ∧
    Resolution.operations petstore = .ok [listPets, showPetById] ∧
    service.spec.routeOf? ⟨"GET", "/pets/\x7bid\x7d"⟩ = some 1 ∧ showPetById.isSecured = true ∧
    ∃ rule ∈ policy.spec.rules, rule.takes ⟨"GET", "/pets/\x7bid\x7d"⟩ = true := by
  obtain ⟨service, served, goes⟩ := exists_ok_of_map
    (show (virtualService petstore (petstoreService false)).toOption.map
      (fun service => service.spec.routeOf? ⟨"GET", "/pets/\x7bid\x7d"⟩) = some (some 1) by
      decide +kernel)
  obtain ⟨policy, guarded⟩ := exists_ok_of_isSome
    (show (authorizationPolicy petstore petstoreGateway).toOption.isSome by decide +kernel)
  obtain ⟨operations, resolved, shown⟩ := exists_ok_of_map
    (show (Resolution.operations petstore).toOption.map
      (fun operations => operations.map Resolved.isSecured) = some [false, true] by decide +kernel)
  obtain ⟨listPets, rest, rfl, _, shown⟩ := List.map_eq_cons_iff.1 shown
  obtain ⟨showPetById, rest, rfl, secured, shown⟩ := List.map_eq_cons_iff.1 shown
  cases List.map_eq_nil_iff.1 shown
  have stands : [listPets, showPetById][1]? = some showPetById := rfl
  exact ⟨service, policy, listPets, showPetById, served, guarded, resolved, goes, secured,
    (secured_request_checked served guarded resolved goes stands secured).1 rfl⟩

def lockedShop : Document where
  version := "3.0.2"
  info := ⟨"Locked Shop", "1.0.0"⟩
  servers := []
  paths := .ofList [("/pets", readItem ⟨some "listPets", [], some [.ofList [("apiKey", [])]], none⟩)]
  components := ⟨.empty, .ofList [("apiKey", ⟨"apiKey", some "header", some "X-Key", none⟩)]⟩
  security := none
  extension := none

/-- Where routes take the paths below theirs, a request goes to a secured operation unchecked. -/
theorem request_below_path_unchecked : ∃ service policy operation,
    virtualService lockedShop (petstoreService true) = .ok service ∧
    authorizationPolicy lockedShop petstoreGateway = .ok policy ∧
    Resolution.operations lockedShop = .ok [operation] ∧ operation.isSecured = true ∧
    service.spec.routeOf? ⟨"GET", "/pets/1"⟩ = some 0 ∧
    ¬ ∃ rule ∈ policy.spec.rules, rule.takes ⟨"GET", "/pets/1"⟩ = true := by
  obtain ⟨service, served, goes⟩ := exists_ok_of_map
    (show (virtualService lockedShop (petstoreService true)).toOption.map
      (fun service => service.spec.routeOf? ⟨"GET", "/pets/1"⟩) = some (some 0) by
      decide +kernel)
  obtain ⟨policy, guarded, unchecked⟩ := exists_ok_of_map
    (show (authorizationPolicy lockedShop petstoreGateway).toOption.map
      (fun policy => policy.spec.rules.any (fun rule => rule.takes ⟨"GET", "/pets/1"⟩)) =
      some false by decide +kernel)
  obtain ⟨operations, resolved, shown⟩ := exists_ok_of_map
    (show (Resolution.operations lockedShop).toOption.map
      (fun operations => operations.map Resolved.isSecured) = some [true] by decide +kernel)
  obtain ⟨operation, rest, rfl, secured, shown⟩ := List.map_eq_cons_iff.1 shown
  cases List.map_eq_nil_iff.1 shown
  refine ⟨service, policy, operation, served, guarded, resolved, secured, goes, ?_⟩
  rw [← List.any_eq_true, unchecked]
  decide

end ApiManifest.Generate
