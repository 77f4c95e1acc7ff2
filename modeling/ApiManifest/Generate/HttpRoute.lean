import ApiManifest.Generate.RouteIdentity
import ApiManifest.Resolution

/-!
The HTTPRoute of a document, with one rule for each enabled operation.
-/

namespace ApiManifest.Generate

open Gateway OpenApi
open Resolution (Resolved)

def routeRule (operation : Resolved) : RouteRule where
  matchers := some [operation.matcher]
  backendRefs := Nonempty.list? operation.backendRefs

def httpRoute (document : Document) : Except GenerationError HttpRoute := do
  let route ← RouteIdentity.ofDocument document
  let operations ← Resolution.operations document
  return {
    metadata := route.metadata
    spec := {
      parentRefs := Nonempty.list? route.parentRefs
      hostnames := Nonempty.list? route.hostnames
      rules := Nonempty.list? (operations.map routeRule) } }

end ApiManifest.Generate
