import ApiManifest.Generate.AuthConfig
import ApiManifest.Generate.AuthPolicy
import ApiManifest.Generate.Mesh
import ApiManifest.Generate.RateLimitPolicy
import ApiManifest.Log.Event

/-!
What is logged while manifests are made. Events are told from the steps that were taken, up to the
first that failed.
-/

namespace ApiManifest.Generate

open Log (Event)
open OpenApi (Document)
open Resolution (Outcome Resolved)

/-- The targets of events, by what they are logged for. -/
inductive EventSource where
  | resolution
  | authPolicy
  | authConfig
  | rateLimitPolicy

def EventSource.target : EventSource → String
  | .resolution => "kuadrantctl_core::resolve"
  | .authPolicy => "kuadrantctl_core::auth_policy"
  | .authConfig => "kuadrantctl_core::auth_config"
  | .rateLimitPolicy => "kuadrantctl_core::ratelimit_policy"

def outcomeEvent? : Outcome → Option Event
  | .disabled path method name => some {
      level := .debug
      target := EventSource.resolution.target
      message := "Skipping disabled operation"
      fields := [("path", .text path), ("method", .text method.name), ("operation", .text name)] }
  | .enabled _ => none

def resolutionEvents (document : Document) : List Event :=
  (Resolution.walk document).reached.filterMap outcomeEvent?

def authEvent? {ρ : Type} (source : EventSource) : AuthOutcome ρ → Option Event
  | .unsecured operation => some {
      level := .debug
      target := source.target
      message := "No security requirements"
      fields := [("operation", .text operation)] }
  | .anonymous operation => some {
      level := .debug
      target := source.target
      message := "Skipping anonymous security requirement"
      fields := [("operation", .text operation)] }
  | .undeclared operation scheme => some {
      level := .warn
      target := source.target
      message := "Security scheme is not declared"
      fields := [("operation", .text operation), ("scheme", .text scheme)] }
  | .unsupported operation scheme kind => some {
      level := .warn
      target := source.target
      message := "Security scheme type is not supported"
      fields := [("operation", .text operation), ("scheme", .text scheme), ("kind", .text kind)] }
  | .rule _ => none

def limitEvent? (operation : Resolved) : Option Event :=
  match operation.rateLimit with
  | some _ => none
  | none => some {
      level := .debug
      target := EventSource.rateLimitPolicy.target
      message := "No rate limit"
      fields := [("operation", .text operation.name)] }

/-- The events of a manifest whose metadata come first: those of the resolution, and if that
succeeds those of what follows. -/
def eventsAfter {α : Type} (metadata : Except GenerationError α) (document : Document)
    (following : α → List Resolved → List Event) : List Event :=
  match metadata with
  | .error _ => []
  | .ok value => resolutionEvents document ++
    match Resolution.operations document with
    | .error _ => []
    | .ok operations => following value operations

def httpRouteEvents (document : Document) : List Event :=
  eventsAfter (RouteIdentity.ofDocument document) document (fun _ _ => [])

def authPolicyEvents (document : Document) : List Event :=
  eventsAfter (RouteIdentity.ofDocument document) document (fun _ operations =>
    (walkPolicy document operations).reached.filterMap (authEvent? .authPolicy))

def rateLimitPolicyEvents (document : Document) : List Event :=
  eventsAfter (RouteIdentity.ofDocument document) document (fun _ operations =>
    operations.filterMap limitEvent?)

def authConfigEvents (document : Document) : List Event :=
  eventsAfter (Naming.resourceName document.info.title) document (fun name operations =>
    (walkIdentities document name operations).reached.filterMap (authEvent? .authConfig))

def meshEvents (document : Document) : List Event :=
  eventsAfter (Naming.resourceName document.info.title) document (fun _ _ => [])

end ApiManifest.Generate
