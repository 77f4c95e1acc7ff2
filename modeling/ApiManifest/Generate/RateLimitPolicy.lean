import ApiManifest.Generate.RouteIdentity
import ApiManifest.Resolution

/-!
The RateLimitPolicy of a document, with one limit for each enabled operation that has a rate limit.
A limit is called as its operation is; of operations with the same name the last one counts.
-/

namespace ApiManifest.Generate

open OpenApi Policy
open Resolution (Resolved)

/-- The limit of an operation, under the operation's name. -/
def limit? (operation : Resolved) : Option (String × Limit) :=
  operation.rateLimit.map (fun rateLimit =>
    (operation.name, {
      routeSelectors := some [.ofMatch operation.matcher]
      conditions := rateLimit.conditions
      counters := rateLimit.counters
      rates := rateLimit.rates }))

def rateLimitPolicy (document : Document) : Except GenerationError RateLimitPolicy := do
  let route ← RouteIdentity.ofDocument document
  let operations ← Resolution.operations document
  return {
    metadata := route.metadata
    spec := {
      targetRef := route.targetRef
      limits := Nonempty.dict? (.ofList (operations.filterMap limit?)) } }

end ApiManifest.Generate
