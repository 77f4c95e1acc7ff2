import ApiManifest.Dict
import ApiManifest.Gateway.RouteMatch

/-!
OpenAPI documents, as far as manifests are made from them. Paths, server variables and security
requirements keep the order in which the document gives them, and the operations of a path stand
in one fixed order of their verbs. Vendor extensions are kept as JSON values.
-/

namespace ApiManifest.OpenApi

open Gateway (Method)

/-- Schemes that must all be satisfied, each with its scopes. -/
abbrev Requirement := Dict (List String)

structure Info where
  title : String
  version : String
  deriving DecidableEq

/-- A server, with the default value of each of its variables. -/
structure Server where
  url : String
  defaults : Dict String
  deriving DecidableEq

inductive ParameterLocation where
  | query
  | header
  | path
  | cookie
  deriving DecidableEq

namespace ParameterLocation

def name : ParameterLocation → String
  | .query => "query"
  | .header => "header"
  | .path => "path"
  | .cookie => "cookie"

def all : List ParameterLocation :=
  [.query, .header, .path, .cookie]

end ParameterLocation

structure Parameter where
  name : String
  location : ParameterLocation
  required : Bool
  deriving DecidableEq

/-- A parameter where it is used: given in place, or by reference to a declared one. -/
inductive ParameterUse where
  | reference (target : String)
  | inline (parameter : Parameter)
  deriving DecidableEq

/-- An operation. Without requirements of its own it inherits those of the document, while an
empty list of its own leaves it unsecured. -/
structure Operation where
  operationId : Option String
  parameters : List ParameterUse
  security : Option (List Requirement)
  extension : Option Json
  deriving DecidableEq

structure PathItem where
  parameters : List ParameterUse
  get : Option Operation
  put : Option Operation
  post : Option Operation
  delete : Option Operation
  options : Option Operation
  head : Option Operation
  patch : Option Operation
  trace : Option Operation
  extension : Option Json
  deriving DecidableEq

namespace PathItem

/-- The verbs a path may declare, in the order in which its operations stand. -/
def verbs : List Method :=
  [.get, .put, .post, .delete, .options, .head, .patch, .trace]

def operation? (item : PathItem) : Method → Option Operation
  | .get => item.get
  | .put => item.put
  | .post => item.post
  | .delete => item.delete
  | .options => item.options
  | .head => item.head
  | .patch => item.patch
  | .trace => item.trace
  | .connect => none

def operations (item : PathItem) : List (Method × Operation) :=
  verbs.filterMap (fun method =>
    (item.operation? method).map (fun operation => (method, operation)))

end PathItem

/-- A declared security scheme. Its type may be one that no manifest can express. -/
structure SecurityScheme where
  kind : String
  location : Option String
  name : Option String
  openIdConnectUrl : Option String
  deriving DecidableEq

structure Components where
  parameters : Dict Parameter
  securitySchemes : Dict SecurityScheme
  deriving DecidableEq

structure Document where
  version : String
  info : Info
  servers : List Server
  paths : Dict PathItem
  components : Components
  security : Option (List Requirement)
  extension : Option Json
  deriving DecidableEq

namespace Document

/-- The requirements of operations that declare none. -/
def defaultSecurity (document : Document) : List Requirement :=
  document.security.getD []

end Document

/-- The operation's own requirements if it declares any, otherwise those of the document. -/
def Operation.effectiveSecurity (operation : Operation) (document : Document) :
    List Requirement :=
  operation.security.getD document.defaultSecurity

/-- What references to declared parameters begin with. -/
def parameterReferenceStart : String :=
  "#/components/parameters/"

/-- The declared parameter that a reference names. -/
def Components.referenced? (components : Components) (target : String) : Option Parameter :=
  let start := parameterReferenceStart.toList
  if start.isPrefixOf target.toList then
    components.parameters.get? (String.ofList (target.toList.drop start.length))
  else none

end ApiManifest.OpenApi
