import ApiManifest.Extension
import ApiManifest.Naming
import ApiManifest.RequestMatch
import ApiManifest.Walk

/-!
The operations of a document with everything they inherit. What an operation sets goes before what
its path sets. Disabled operations are passed over as soon as that is known, so nothing else about
them can fail.
-/

namespace ApiManifest.Resolution

open Extension (RateLimit Settings)
open Gateway (BackendRef Method PathMatchType RouteMatch)
open OpenApi (Document Operation PathItem Requirement)
open RequestMatch (Site)

/-- Settings after inheritance. -/
structure Effective where
  disabled : Bool
  pathMatchType : PathMatchType
  backendRefs : List BackendRef
  rateLimit : Option RateLimit
  deriving DecidableEq

/-- The operation's settings where there are any, otherwise the path's. An empty list of backends
is none, and rate limits are not mixed. -/
def Effective.overlay (path own : Settings) : Effective where
  disabled := (own.disable.or path.disable).getD false
  pathMatchType := (own.pathMatchType.or path.pathMatchType).getD .exact
  backendRefs := if own.backendRefs.isEmpty then path.backendRefs else own.backendRefs
  rateLimit := own.rateLimit.or path.rateLimit

/-- An enabled operation. -/
structure Resolved where
  path : String
  method : Method
  operation : Operation
  name : String
  pathMatchType : PathMatchType
  backendRefs : List BackendRef
  rateLimit : Option RateLimit
  security : List Requirement
  matcher : RouteMatch
  deriving DecidableEq

def Resolved.isSecured (operation : Resolved) : Bool :=
  !operation.security.isEmpty

inductive Outcome where
  | disabled (path : String) (method : Method) (name : String)
  | enabled (operation : Resolved)
  deriving DecidableEq

def Outcome.enabled? : Outcome → Option Resolved
  | .enabled operation => some operation
  | .disabled .. => none

/-- Resolves one operation, whose path has these settings. -/
def resolve (document : Document) (pathPrefix : String) (inherited : Settings) (site : Site) :
    Except GenerationError Outcome := do
  let own ← Settings.ofJson (.operation site.path site.method.name) site.operation.extension
  let name := Naming.operationName site.path site.method site.operation
  let effective := Effective.overlay inherited own
  if effective.disabled then return .disabled site.path site.method name
  let matcher ← RequestMatch.build document.components pathPrefix site effective.pathMatchType
  return .enabled {
    path := site.path
    method := site.method
    operation := site.operation
    name
    pathMatchType := effective.pathMatchType
    backendRefs := effective.backendRefs
    rateLimit := effective.rateLimit
    security := site.operation.effectiveSecurity document
    matcher }

def walkPath (document : Document) (pathPrefix : String) (path : String) (item : PathItem) :
    Walk GenerationError Outcome :=
  match Settings.ofJson (.path path) item.extension with
  | .error error => [.error error]
  | .ok inherited => item.operations.map (fun (method, operation) =>
      resolve document pathPrefix inherited ⟨path, item, method, operation⟩)

/-- The first server, then the paths, each followed by its operations. -/
def walk (document : Document) : Walk GenerationError Outcome :=
  match document.pathPrefix with
  | .error error => [.error error]
  | .ok pathPrefix => document.paths.entries.flatMap (fun (path, item) =>
      walkPath document pathPrefix path item)

/-- The enabled operations in document order, or the first failure. -/
def operations (document : Document) : Except GenerationError (List Resolved) :=
  (walk document).results.map (fun outcomes => outcomes.filterMap Outcome.enabled?)

end ApiManifest.Resolution
