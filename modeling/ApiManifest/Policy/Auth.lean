import ApiManifest.Policy.Target

/-!
The AuthPolicy: which requests to a route are authenticated, and how.
-/

namespace ApiManifest.Policy

/-- The label a Secret must carry to be taken as an API key; its value is the scheme's name. -/
def apiKeySecretLabel : String :=
  "kuadrant.io/apikeys-by"

structure Named where
  name : String
  deriving DecidableEq

def Named.codec : Codec Named :=
  .record "Named" (.cons (.required "name" .text) .nil) (fun (name, ()) => { name })
    (fun named => (named.name, ()))

/-- Where a credential is read from. -/
inductive Credentials where
  | customHeader (named : Named)
  | queryString (named : Named)
  | cookie (named : Named)
  deriving DecidableEq

namespace Credentials

def variants : Codec.Variants Credentials where
  name := "Credentials"
  readers :=
    [("customHeader", Named.codec.read.map .customHeader),
      ("queryString", Named.codec.read.map .queryString),
      ("cookie", Named.codec.read.map .cookie)]
  write
    | .customHeader named => ("customHeader", Named.codec.write named)
    | .queryString named => ("queryString", Named.codec.write named)
    | .cookie named => ("cookie", Named.codec.write named)

def codec : Codec Credentials :=
  .variants variants

end Credentials

structure ApiKeyAuthentication where
  selector : LabelSelector
  allNamespaces : Option Bool
  deriving DecidableEq

namespace ApiKeyAuthentication

def codec : Codec ApiKeyAuthentication :=
  .record "ApiKeyAuthentication"
    (.cons (.required "selector" LabelSelector.codec) <|
      .cons (.optional "allNamespaces" .flag) .nil)
    (fun (selector, allNamespaces, ()) => { selector, allNamespaces })
    (fun key => (key.selector, key.allNamespaces, ()))

/-- Takes the Secrets that are labelled with the scheme. -/
def forScheme (scheme : String) : ApiKeyAuthentication :=
  ⟨⟨some (.ofList [(apiKeySecretLabel, scheme)])⟩, none⟩

end ApiKeyAuthentication

structure JwtAuthentication where
  issuerUrl : String
  deriving DecidableEq

def JwtAuthentication.codec : Codec JwtAuthentication :=
  .record "JwtAuthentication" (.cons (.required "issuerUrl" .text) .nil)
    (fun (issuerUrl, ()) => { issuerUrl }) (fun jwt => (jwt.issuerUrl, ()))

inductive AuthenticationMethod where
  | apiKey (key : ApiKeyAuthentication)
  | jwt (token : JwtAuthentication)
  deriving DecidableEq

def AuthenticationMethod.variants : Codec.Variants AuthenticationMethod where
  name := "AuthenticationMethod"
  readers :=
    [("apiKey", ApiKeyAuthentication.codec.read.map .apiKey),
      ("jwt", JwtAuthentication.codec.read.map .jwt)]
  write
    | .apiKey key => ("apiKey", ApiKeyAuthentication.codec.write key)
    | .jwt token => ("jwt", JwtAuthentication.codec.write token)

/-- One way to authenticate the requests its selectors select. -/
structure Authentication where
  routeSelectors : Option (List RouteSelector)
  credentials : Option Credentials
  method : AuthenticationMethod
  deriving DecidableEq

def Authentication.codec : Codec Authentication :=
  .recordWith "AuthenticationSpec"
    (.cons (.optional "routeSelectors" (.list RouteSelector.codec)) <|
      .cons (.optional "credentials" Credentials.codec) .nil)
    AuthenticationMethod.variants
    (fun (routeSelectors, credentials, ()) method => { routeSelectors, credentials, method })
    (fun rule => (rule.routeSelectors, rule.credentials, ())) Authentication.method

structure AuthRules where
  authentication : Option (SortedDict Authentication)
  deriving DecidableEq

def AuthRules.codec : Codec AuthRules :=
  .record "AuthScheme"
    (.cons (.optional "authentication" (.sorted Authentication.codec)) .nil)
    (fun (authentication, ()) => { authentication })
    (fun rules => (rules.authentication, ()))

/-- The top-level selectors say which requests are checked at all. -/
structure AuthPolicySpec where
  targetRef : TargetRef
  routeSelectors : Option (List RouteSelector)
  rules : Option AuthRules
  deriving DecidableEq

def AuthPolicySpec.codec : Codec AuthPolicySpec :=
  .record "AuthPolicySpec"
    (.cons (.required "targetRef" TargetRef.codec) <|
      .cons (.optional "routeSelectors" (.list RouteSelector.codec)) <|
      .cons (.optional "rules" AuthRules.codec) .nil)
    (fun (targetRef, routeSelectors, rules, ()) => { targetRef, routeSelectors, rules })
    (fun spec => (spec.targetRef, spec.routeSelectors, spec.rules, ()))

instance : Specification AuthPolicySpec where
  kind := ⟨"kuadrant.io", "v1beta2", "AuthPolicy", "authpolicies", "AuthPolicy"⟩
  codec := AuthPolicySpec.codec

abbrev AuthPolicy := Manifest AuthPolicySpec

end ApiManifest.Policy
