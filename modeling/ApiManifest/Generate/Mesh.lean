import ApiManifest.Mesh.AuthorizationPolicy
import ApiManifest.Mesh.VirtualService
import ApiManifest.Resolution

/-!
The manifests of a service mesh: a VirtualService that sends each enabled operation to a service,
and an AuthorizationPolicy that has the secured ones checked.
-/

namespace ApiManifest.Generate

open Mesh OpenApi
open Resolution (Resolved)

structure VirtualServiceConfig where
  /-- The host that clients use to reach the API. -/
  publicHost : String
  serviceName : String
  serviceNamespace : String
  servicePort : UInt32
  gateways : List String
  /-- Whether a path also takes the paths that begin with it. -/
  pathPrefixMatch : Bool
  deriving DecidableEq

structure AuthorizationPolicyConfig where
  publicHost : String
  /-- The labels of the gateway's workloads. -/
  gatewayLabels : SortedDict String
  deriving DecidableEq

def defaultServicePort : UInt32 := 80

namespace VirtualServiceConfig

def destination (config : VirtualServiceConfig) : Destination where
  host := config.serviceName ++ "." ++ config.serviceNamespace ++ ".svc"
  subset := none
  port := some ⟨config.servicePort⟩

def route (config : VirtualServiceConfig) (operation : Resolved) : ServiceRoute where
  name := operation.name
  matchers :=
    [{ uri := some (if config.pathPrefixMatch then .leading operation.path
        else .exact operation.path)
       method := some (.exact operation.method.name) }]
  route := [⟨config.destination, none⟩]

end VirtualServiceConfig

def virtualService (document : Document) (config : VirtualServiceConfig) :
    Except GenerationError VirtualService := do
  let name ← Naming.resourceName document.info.title
  let operations ← Resolution.operations document
  return {
    metadata := .named name
    spec := {
      hosts := [config.publicHost]
      gateways := config.gateways
      http := operations.map config.route } }

/-- A rule for the requests of an operation. -/
def authorizationRule (publicHost : String) (operation : Resolved) : AuthorizationRule where
  targets := [⟨{
    hosts := [publicHost]
    methods := [operation.method.name]
    paths := [operation.path] }⟩]

def authorizationPolicy (document : Document) (config : AuthorizationPolicyConfig) :
    Except GenerationError AuthorizationPolicy := do
  let name ← Naming.resourceName document.info.title
  let operations ← Resolution.operations document
  let secured := operations.filter Resolved.isSecured
  return {
    metadata := .named name
    spec := {
      selector := some ⟨config.gatewayLabels⟩
      rules := secured.map (authorizationRule config.publicHost)
      action := .custom
      provider := some ⟨authorizationProvider⟩ } }

end ApiManifest.Generate
