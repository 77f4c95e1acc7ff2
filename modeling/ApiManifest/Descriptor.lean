import ApiManifest.Manifest

/-!
The API descriptor: the hosts an API is served on, its operations, and the security schemes that
protect them.
-/

namespace ApiManifest.Descriptor

structure Operation where
  name : String
  path : String
  method : String
  deriving DecidableEq

def Operation.codec : Codec Operation :=
  .record "Operation"
    (.cons (.required "name" .text) <|
      .cons (.required "path" .text) <|
      .cons (.required "method" .text) .nil)
    (fun (name, path, method, ()) => { name, path, method })
    (fun operation => (operation.name, operation.path, operation.method, ()))

/-- An API key, read from a header, a query parameter or a cookie of that name. -/
structure ApiKeyAuth where
  location : String
  name : String
  deriving DecidableEq

def ApiKeyAuth.codec : Codec ApiKeyAuth :=
  .record "ApiKeyAuth"
    (.cons (.required "location" .text) <| .cons (.required "name" .text) .nil)
    (fun (location, name, ()) => { location, name })
    (fun key => (key.location, key.name, ()))

structure OpenIdAuth where
  url : String
  deriving DecidableEq

def OpenIdAuth.codec : Codec OpenIdAuth :=
  .record "OpenIdConnectAuth" (.cons (.required "url" .text) .nil) (fun (url, ()) => { url })
    (fun auth => (auth.url, ()))

structure SecurityScheme where
  name : String
  apiKeyAuth : Option ApiKeyAuth
  openIdAuth : Option OpenIdAuth
  deriving DecidableEq

def SecurityScheme.codec : Codec SecurityScheme :=
  .record "SecurityScheme"
    (.cons (.required "name" .text) <|
      .cons (.optional "apiKeyAuth" ApiKeyAuth.codec) <|
      .cons (.optional "openIDConnectAuth" OpenIdAuth.codec) .nil)
    (fun (name, apiKeyAuth, openIdAuth, ()) => { name, apiKeyAuth, openIdAuth })
    (fun scheme => (scheme.name, scheme.apiKeyAuth, scheme.openIdAuth, ()))

structure ApiSpec where
  hosts : List String
  operations : List Operation
  securitySchemes : List SecurityScheme
  deriving DecidableEq

def ApiSpec.codec : Codec ApiSpec :=
  .record "ApiSpec"
    (.cons (.items "hosts" .text) <|
      .cons (.items "operations" Operation.codec) <|
      .cons (.items "securityScheme" SecurityScheme.codec) .nil)
    (fun (hosts, operations, securitySchemes, ()) => { hosts, operations, securitySchemes })
    (fun spec => (spec.hosts, spec.operations, spec.securitySchemes, ()))

instance : Specification ApiSpec where
  kind := ⟨"networking.kuadrant.io", "v1beta1", "API", "apis", "Api"⟩
  codec := ApiSpec.codec

abbrev Api := Manifest ApiSpec

end ApiManifest.Descriptor
