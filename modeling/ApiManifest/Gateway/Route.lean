import ApiManifest.Manifest
import ApiManifest.Gateway.RouteMatch
import ApiManifest.Gateway.BackendRef

/-!
The HTTPRoute: the hosts and gateways a route belongs to, and its rules.
-/

namespace ApiManifest.Gateway

structure RouteRule where
  matchers : Option (List RouteMatch)
  backendRefs : Option (List BackendRef)
  deriving DecidableEq

def RouteRule.codec : Codec RouteRule :=
  .record "HttpRouteRule"
    (.cons (.optional "matches" (.list RouteMatch.codec)) <|
      .cons (.optional "backendRefs" (.list BackendRef.codec)) .nil)
    (fun (matchers, backendRefs, ()) => { matchers, backendRefs })
    (fun rule => (rule.matchers, rule.backendRefs, ()))

structure RouteSpec where
  parentRefs : Option (List ParentRef)
  hostnames : Option (List String)
  rules : Option (List RouteRule)
  deriving DecidableEq

def RouteSpec.codec : Codec RouteSpec :=
  .record "HttpRouteSpec"
    (.cons (.optional "parentRefs" (.list ParentRef.codec)) <|
      .cons (.optional "hostnames" (.list .text)) <|
      .cons (.optional "rules" (.list RouteRule.codec)) .nil)
    (fun (parentRefs, hostnames, rules, ()) => { parentRefs, hostnames, rules })
    (fun spec => (spec.parentRefs, spec.hostnames, spec.rules, ()))

instance : Specification RouteSpec where
  kind := ⟨"gateway.networking.k8s.io", "v1", "HTTPRoute", "httproutes", "HttpRoute"⟩
  codec := RouteSpec.codec

abbrev HttpRoute := Manifest RouteSpec

end ApiManifest.Gateway
