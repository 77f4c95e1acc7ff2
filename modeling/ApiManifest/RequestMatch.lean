import ApiManifest.Nonempty
import ApiManifest.OpenApi.ServerUrl

/-!
The requests of an operation: those with its verb, with its path after the base path, and with the
header and query parameters it requires. Parameters of the operation replace those of its path,
headers and query parameters each on their own.
-/

namespace ApiManifest.RequestMatch

open Gateway OpenApi

def resolve (components : Components) : ParameterUse → Except GenerationError Parameter
  | .inline parameter => .ok parameter
  | .reference target =>
    match components.referenced? target with
    | some parameter => .ok parameter
    | none => .error (.unresolvedReference target)

/-- The names of the required parameters at a location. -/
def requiredNames (components : Components) (uses : List ParameterUse)
    (location : ParameterLocation) : Except GenerationError (List String) := do
  let parameters ← uses.mapM (resolve components)
  return (parameters.filter (fun p => p.required && p.location = location)).map Parameter.name

/-- The required names of the operation if it has any, otherwise those of its path. -/
def overriding (components : Components) (item : PathItem) (operation : Operation)
    (location : ParameterLocation) : Except GenerationError (List String) := do
  let own ← requiredNames components operation.parameters location
  if own.isEmpty then requiredNames components item.parameters location else return own

def conditions (names : List String) : Option (List ValueMatch) :=
  Nonempty.list? (names.map ValueMatch.exact)

/-- An operation where it stands in a document. -/
structure Site where
  path : String
  item : PathItem
  method : Method
  operation : Operation

def build (components : Components) (pathPrefix : String) (site : Site) (type : PathMatchType) :
    Except GenerationError RouteMatch := do
  let headers ← overriding components site.item site.operation .header
  let queryParams ← overriding components site.item site.operation .query
  return {
    path := some ⟨some type, some (pathPrefix ++ site.path)⟩
    headers := conditions headers
    queryParams := conditions queryParams
    method := some site.method }

end ApiManifest.RequestMatch

namespace ApiManifest

/-- The operations of a document: paths in their order, and the verbs of each in theirs. -/
def OpenApi.Document.sites (document : OpenApi.Document) : List RequestMatch.Site :=
  document.paths.entries.flatMap (fun (path, item) =>
    item.operations.map (fun (method, operation) => ⟨path, item, method, operation⟩))

end ApiManifest
