import ApiManifest.GenerationError
import ApiManifest.Nonempty
import ApiManifest.OpenApi.Document

/-!
What security schemes and requirements mean for authentication.
-/

namespace ApiManifest.Security

open OpenApi (Requirement SecurityScheme)

inductive KeyLocation where
  | header
  | query
  | cookie
  deriving DecidableEq

def KeyLocation.name : KeyLocation → String
  | .header => "header"
  | .query => "query"
  | .cookie => "cookie"

def KeyLocation.ofName? : String → Option KeyLocation
  | "header" => some .header
  | "query" => some .query
  | "cookie" => some .cookie
  | _ => none

inductive Scheme where
  | apiKey (location : KeyLocation) (name : String)
  | openIdConnect (url : String)
  /-- A type that no policy can express. -/
  | unsupported (kind : String)
  deriving DecidableEq

/-- The meaning of the declared scheme of that name. -/
def classify (name : String) (scheme : SecurityScheme) : Except GenerationError Scheme :=
  if scheme.kind = "apiKey" then
    match scheme.location with
    | none => .error (.invalidScheme name .locationMissing)
    | some text =>
      match KeyLocation.ofName? text with
      | none => .error (.invalidScheme name .locationUnknown)
      | some location =>
        match Nonempty.text? scheme.name with
        | none => .error (.invalidScheme name .nameMissing)
        | some key => .ok (.apiKey location key)
  else if scheme.kind = "openIdConnect" then
    match Nonempty.text? scheme.openIdConnectUrl with
    | none => .error (.invalidScheme name .urlMissing)
    | some url => .ok (.openIdConnect url)
  else .ok (.unsupported scheme.kind)

/-- The only scheme a requirement names, none if it names no scheme at all. -/
def requiredScheme (operation : String) (requirement : Requirement) :
    Except GenerationError (Option String) :=
  match requirement.keys with
  | [] => .ok none
  | [name] => .ok (some name)
  | names => .error (.unsupportedRequirement operation names)

end ApiManifest.Security
