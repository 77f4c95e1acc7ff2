import ApiManifest.Descriptor
import ApiManifest.Naming
import ApiManifest.RequestMatch
import ApiManifest.Security

/-!
The API descriptor of a document. It lists every operation, disabled ones too, and every security
scheme, of which each must be one that it can express.
-/

namespace ApiManifest.Generate

open OpenApi (Document)

def describeOperation (pathPrefix : String) (site : RequestMatch.Site) : Descriptor.Operation where
  name := Naming.systemName site.path site.method site.operation
  path := pathPrefix ++ site.path
  method := site.method.name

def describeScheme (name : String) (scheme : OpenApi.SecurityScheme) :
    Except GenerationError Descriptor.SecurityScheme := do
  match ← Security.classify name scheme with
  | .apiKey location key =>
    return { name, apiKeyAuth := some ⟨location.name, key⟩, openIdAuth := none }
  | .openIdConnect url => return { name, apiKeyAuth := none, openIdAuth := some ⟨url⟩ }
  | .unsupported kind => .error (.unsupportedScheme name kind)

def api (document : Document) : Except GenerationError Descriptor.Api := do
  let name ← Naming.resourceName document.info.title
  let pathPrefix ← document.pathPrefix
  let securitySchemes ← document.components.securitySchemes.entries.mapM (fun (name, scheme) =>
    describeScheme name scheme)
  let hosts ← document.hosts
  return {
    metadata := .named name
    spec := {
      hosts
      operations := document.sites.map (describeOperation pathPrefix)
      securitySchemes } }

end ApiManifest.Generate
