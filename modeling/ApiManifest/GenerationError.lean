import ApiManifest.Codec.Fault
import ApiManifest.Text.LowerCase
import ApiManifest.Uri

/-!
Why no manifest can be made from a document, and how that is said.
-/

namespace ApiManifest

/-- Where a vendor extension stands in a document. -/
inductive ExtensionPlace where
  | root
  | path (template : String)
  | operation (template method : String)
  deriving DecidableEq

def ExtensionPlace.message : ExtensionPlace → String
  | .root => "document root"
  | .path template => "paths." ++ template
  | .operation template method => "paths." ++ template ++ "." ++ Text.lower method

/-- What a security scheme lacks. -/
inductive SchemeFault where
  | locationUnknown
  | locationMissing
  | nameMissing
  | urlMissing
  deriving DecidableEq

def SchemeFault.message : SchemeFault → String
  | .locationUnknown => "apiKey location must be header, query or cookie"
  | .locationMissing => "apiKey schemes must set \x60in\x60"
  | .nameMissing => "apiKey schemes must set \x60name\x60"
  | .urlMissing => "openIdConnect schemes must set \x60openIdConnectUrl\x60"

/-- What a DNS subdomain must be and a name is not. -/
inductive NameFault where
  | empty
  | tooLong
  | malformed
  deriving DecidableEq

def NameFault.message : NameFault → String
  | .empty => "a DNS subdomain must not be empty"
  | .tooLong => "a DNS subdomain must be no more than 253 characters"
  | .malformed =>
    "a DNS subdomain must consist of lower case alphanumeric characters, '-' or '.'"

inductive GenerationError where
  /-- The root of the document has no route object to name the manifests by. -/
  | missingRouteExtension
  | missingRouteName
  /-- A requirement asks for several schemes at once. -/
  | unsupportedRequirement (operation : String) (schemes : List String)
  | unsupportedScheme (name kind : String)
  | undeclaredScheme (operation name : String)
  | invalidScheme (name : String) (fault : SchemeFault)
  | invalidExtension (place : ExtensionPlace) (cause : DecodeError)
  /-- A reference names no declared parameter. -/
  | unresolvedReference (target : String)
  | invalidServerUrl (url : String) (cause : UriFault)
  | invalidResourceName (name : String) (fault : NameFault)
  deriving DecidableEq

namespace GenerationError

def message : GenerationError → String
  | .missingRouteExtension => "the document has no x-kuadrant route extension"
  | .missingRouteName => "the x-kuadrant route extension has no name"
  | .unsupportedRequirement operation schemes =>
    "operation " ++ operation ++ " requires all of [" ++ ", ".intercalate schemes
      ++ "]; security requirements combining multiple schemes are not supported"
  | .unsupportedScheme name kind =>
    "security scheme " ++ name ++ " has unsupported type " ++ Text.quoted kind
      ++ "; supported types are apiKey and openIdConnect"
  | .undeclaredScheme operation name =>
    "operation " ++ operation ++ " requires undeclared security scheme " ++ name
  | .invalidScheme name fault => "security scheme " ++ name ++ " is invalid: " ++ fault.message
  | .invalidExtension place _ => "invalid x-kuadrant extension at " ++ place.message
  | .unresolvedReference target =>
    "parameter reference " ++ Text.quoted target ++ " does not resolve"
  | .invalidServerUrl url _ => "invalid server url " ++ Text.quoted url
  | .invalidResourceName name fault =>
    Text.quoted name ++ " is not a valid resource name: " ++ fault.message

/-- What lies behind an error, where that has a text of its own. -/
def cause? : GenerationError → Option String
  | .invalidExtension _ cause => some cause.message
  | .invalidServerUrl _ cause => some cause.message
  | _ => none

end GenerationError

end ApiManifest
