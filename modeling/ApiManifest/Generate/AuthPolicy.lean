import ApiManifest.Generate.Authentication
import ApiManifest.Generate.RouteIdentity
import ApiManifest.Policy.Auth

/-!
The AuthPolicy of a document. Each requirement of an enabled operation becomes a rule that selects
the requests of that operation; schemes that no rule can express are passed over. The top-level
selectors send every secured operation through the check.
-/

namespace ApiManifest.Generate

open OpenApi Policy
open Resolution (Resolved)
open Security (KeyLocation)

def policyCredentials (location : KeyLocation) (name : String) : Policy.Credentials :=
  match location with
  | .header => .customHeader ⟨name⟩
  | .query => .queryString ⟨name⟩
  | .cookie => .cookie ⟨name⟩

/-- A rule for the requests of an operation. -/
def policyRule (operation : Resolved) (scheme : String) (credentials : Option Policy.Credentials)
    (method : AuthenticationMethod) : AuthOutcome (String × Authentication) :=
  .rule (ruleName operation scheme,
    { routeSelectors := some [.ofMatch operation.matcher], credentials, method })

def settlePolicy (operation : Resolved) :
    Demand → Except GenerationError (AuthOutcome (String × Authentication))
  | .anonymous => .ok (.anonymous operation.name)
  | .undeclared scheme => .ok (.undeclared operation.name scheme)
  | .declared scheme (.unsupported kind) => .ok (.unsupported operation.name scheme kind)
  | .declared scheme (.apiKey location name) =>
    .ok (policyRule operation scheme (some (policyCredentials location name))
      (.apiKey (.forScheme scheme)))
  | .declared scheme (.openIdConnect url) => .ok (policyRule operation scheme none (.jwt ⟨url⟩))

def walkPolicy (document : Document) (operations : List Resolved) :
    Walk GenerationError (AuthOutcome (String × Authentication)) :=
  walkSecurity document settlePolicy operations

def authPolicy (document : Document) : Except GenerationError AuthPolicy := do
  let route ← RouteIdentity.ofDocument document
  let operations ← Resolution.operations document
  let outcomes ← (walkPolicy document operations).results
  let selectors := (operations.filter Resolved.isSecured).map (fun operation =>
    RouteSelector.ofMatch operation.matcher)
  let authentication := Nonempty.dict? (.ofList (outcomes.filterMap AuthOutcome.rule?))
  return {
    metadata := route.metadata
    spec := {
      targetRef := route.targetRef
      routeSelectors := Nonempty.list? selectors
      rules := authentication.map (fun rules => ⟨some rules⟩) } }

end ApiManifest.Generate
