import ApiManifest.Manifest

/-!
The AuthConfig: how the identity of a request to one of the hosts is established. An identity is
only looked for where all its conditions hold.
-/

namespace ApiManifest.AuthConfig

/-- The label that marks a Secret as managed by the authorization service. -/
def managedByLabel : String :=
  "authorino.kuadrant.io/managed-by"

inductive PatternOperator where
  | equal
  | notEqual
  | includes
  | excludes
  | matching
  deriving DecidableEq

namespace PatternOperator

def name : PatternOperator → String
  | .equal => "eq"
  | .notEqual => "neq"
  | .includes => "incl"
  | .excludes => "excl"
  | .matching => "matches"

def all : List PatternOperator :=
  [.equal, .notEqual, .includes, .excludes, .matching]

def codec : Codec PatternOperator :=
  .choice (all.map (fun operator => (operator.name, operator))) name

end PatternOperator

structure Pattern where
  selector : String
  operator : PatternOperator
  value : String
  deriving DecidableEq

namespace Pattern

def codec : Codec Pattern :=
  .record "JsonPattern"
    (.cons (.required "selector" .text) <|
      .cons (.required "operator" PatternOperator.codec) <|
      .cons (.required "value" .text) .nil)
    (fun (selector, operator, value, ()) => { selector, operator, value })
    (fun pattern => (pattern.selector, pattern.operator, pattern.value, ()))

def equals (selector value : String) : Pattern :=
  ⟨selector, .equal, value⟩

end Pattern

inductive CredentialsLocation where
  | authorizationHeader
  | customHeader
  | query
  | cookie
  deriving DecidableEq

namespace CredentialsLocation

def name : CredentialsLocation → String
  | .authorizationHeader => "authorization_header"
  | .customHeader => "custom_header"
  | .query => "query"
  | .cookie => "cookie"

def all : List CredentialsLocation :=
  [.authorizationHeader, .customHeader, .query, .cookie]

def codec : Codec CredentialsLocation :=
  .choice (all.map (fun location => (location.name, location))) name

end CredentialsLocation

structure Credentials where
  location : CredentialsLocation
  keySelector : String
  deriving DecidableEq

def Credentials.codec : Codec Credentials :=
  .record "Credentials"
    (.cons (.required "in" CredentialsLocation.codec) <|
      .cons (.required "keySelector" .text) .nil)
    (fun (location, keySelector, ()) => { location, keySelector })
    (fun credentials => (credentials.location, credentials.keySelector, ()))

structure ApiKey where
  labelSelectors : SortedDict String
  deriving DecidableEq

namespace ApiKey

def codec : Codec ApiKey :=
  .record "ApiKey" (.cons (.required "labelSelectors" (.sorted .text)) .nil)
    (fun (labelSelectors, ()) => { labelSelectors }) (fun key => (key.labelSelectors, ()))

/-- Takes the managed Secrets that are labelled with the application. -/
def forApp (app : String) : ApiKey :=
  ⟨.ofList [(managedByLabel, "authorino"), ("app", app)]⟩

end ApiKey

structure Oidc where
  endpoint : String
  deriving DecidableEq

def Oidc.codec : Codec Oidc :=
  .record "Oidc" (.cons (.required "endpoint" .text) .nil) (fun (endpoint, ()) => { endpoint })
    (fun oidc => (oidc.endpoint, ()))

inductive IdentityMethod where
  | apiKey (key : ApiKey)
  | oidc (issuer : Oidc)
  deriving DecidableEq

def IdentityMethod.variants : Codec.Variants IdentityMethod where
  name := "IdentityMethod"
  readers := [("apiKey", ApiKey.codec.read.map .apiKey), ("oidc", Oidc.codec.read.map .oidc)]
  write
    | .apiKey key => ("apiKey", ApiKey.codec.write key)
    | .oidc issuer => ("oidc", Oidc.codec.write issuer)

structure Identity where
  name : String
  conditions : List Pattern
  credentials : Option Credentials
  method : IdentityMethod
  deriving DecidableEq

def Identity.codec : Codec Identity :=
  .recordWith "Identity"
    (.cons (.required "name" .text) <|
      .cons (.items "when" Pattern.codec) <|
      .cons (.optional "credentials" Credentials.codec) .nil)
    IdentityMethod.variants
    (fun (name, conditions, credentials, ()) method => { name, conditions, credentials, method })
    (fun identity => (identity.name, identity.conditions, identity.credentials, ()))
    Identity.method

structure AuthConfigSpec where
  hosts : List String
  identity : List Identity
  deriving DecidableEq

/-- The hosts are written even when there are none. -/
def hostsField : WireField (List String) :=
  .required "hosts" (.list .text)

def AuthConfigSpec.codec : Codec AuthConfigSpec :=
  .record "AuthConfigSpec"
    (.cons hostsField <| .cons (.items "identity" Identity.codec) .nil)
    (fun (hosts, identity, ()) => { hosts, identity })
    (fun spec => (spec.hosts, spec.identity, ()))

instance : Specification AuthConfigSpec where
  kind := ⟨"authorino.kuadrant.io", "v1beta1", "AuthConfig", "authconfigs", "AuthConfig"⟩
  codec := AuthConfigSpec.codec

abbrev Config := Manifest AuthConfigSpec

end ApiManifest.AuthConfig
