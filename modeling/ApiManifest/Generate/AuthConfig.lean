import ApiManifest.AuthConfig
import ApiManifest.Generate.Authentication

/-!
The AuthConfig of a document. Each requirement of an enabled operation becomes an identity that is
looked for in requests with the operation's path and verb. A scheme that is not declared or that
no identity can express is an error.
-/

namespace ApiManifest.Generate

open AuthConfig OpenApi
open Resolution (Resolved)
open Security (KeyLocation)

/-- Selects the path of a request, without its query. -/
def pathSelector : String :=
  "context.request.http.path@extract\x7b\"sep\":\"/\"\x7d"

def methodSelector : String :=
  "context.request.http.method"

def identityLocation : KeyLocation → CredentialsLocation
  | .header => .customHeader
  | .query => .query
  | .cookie => .cookie

/-- An identity for the requests of an operation. -/
def identity (operation : Resolved) (scheme : String) (credentials : Option Credentials)
    (method : IdentityMethod) : AuthOutcome Identity :=
  .rule {
    name := ruleName operation scheme
    conditions :=
      [.equals pathSelector operation.path, .equals methodSelector operation.method.name]
    credentials
    method }

def settleIdentity (app : String) (operation : Resolved) :
    Demand → Except GenerationError (AuthOutcome Identity)
  | .anonymous => .ok (.anonymous operation.name)
  | .undeclared scheme => .error (.undeclaredScheme operation.name scheme)
  | .declared scheme (.unsupported kind) => .error (.unsupportedScheme scheme kind)
  | .declared scheme (.apiKey location name) =>
    .ok (identity operation scheme (some ⟨identityLocation location, name⟩) (.apiKey (.forApp app)))
  | .declared scheme (.openIdConnect url) => .ok (identity operation scheme none (.oidc ⟨url⟩))

def walkIdentities (document : Document) (app : String) (operations : List Resolved) :
    Walk GenerationError (AuthOutcome Identity) :=
  walkSecurity document (settleIdentity app) operations

def authConfig (document : Document) (publicHost : String) :
    Except GenerationError AuthConfig.Config := do
  let name ← Naming.resourceName document.info.title
  let operations ← Resolution.operations document
  let outcomes ← (walkIdentities document name operations).results
  return {
    metadata := .named name
    spec := { hosts := [publicHost], identity := outcomes.filterMap AuthOutcome.rule? } }

end ApiManifest.Generate
